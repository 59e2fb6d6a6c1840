import HealthMonitor.Metrics.Exposition
import HealthMonitor.Monitor.Basic

/-!
# Routes

What a monitor answers over HTTP: its metrics as text, the health of its endpoints, and their
statuses, both as JSON. The status code of the health says whether every critical endpoint is well.
Only reading is allowed, and a request for the head alone gets no body.
-/

namespace HealthMonitor

/-- A page of a monitor. -/
inductive Route where
  | metrics
  | health
  | details
  deriving DecidableEq, Repr

/-- The body of a response. -/
inductive Body where
  | none
  | json (value : Json)
  | text (lines : List String)

/-- A response to a request. -/
structure Response where
  status : Nat
  contentType : Option String
  body : Body

namespace Route

/-- The page at a path. -/
def ofPath? : String → Option Route
  | "/metrics" => some metrics
  | "/health" => some health
  | "/health/details" => some details
  | _ => Option.none

/-- Whether a character ends the path of a request target. -/
def endsPath (c : Char) : Bool :=
  c == '?' || c == '#'

/-- Characters of the scheme of a URL. -/
def isSchemeChar (c : Char) : Bool :=
  c.isAlphanum || c == '+' || c == '-' || c == '.'

/-- What stands behind the host of a target that is a whole URL. -/
def behindHost? (target : List Char) : Option (List Char) :=
  match target.dropWhile isSchemeChar with
  | ':' :: '/' :: '/' :: rest => some (rest.dropWhile fun c => c != '/' && !endsPath c)
  | _ => Option.none

/-- The path of a request target, without scheme, host, query and fragment. -/
def pathOf (target : String) : String :=
  let cs := target.toList
  String.ofList (((behindHost? cs).getD cs).takeWhile fun c => !endsPath c)

end Route

namespace Response

/-- A response that only says how it went. -/
def bare (status : Nat) : Response :=
  ⟨status, none, .none⟩

def ofJson (status : Nat) (j : Json) : Response :=
  ⟨status, some "application/json", .json j⟩

/-- The response without its body. -/
def head (r : Response) : Response :=
  { r with body := .none }

end Response

namespace Monitor

variable {P : Type}

/-- The content type of metrics. -/
def metricsType : String := "text/plain; version=0.0.4; charset=utf-8"

/-- A page of a monitor. -/
def page (m : Monitor P) : Route → Response
  | .metrics => ⟨200, some metricsType, .text m.scheduler.metrics.lines⟩
  | .health =>
    .ofJson (if m.criticalHealthy then 200 else 503)
      (Json.obj (m.health.map fun e => (e.1, Json.bool e.2)))
  | .details => .ofJson 200 (Json.obj (m.details.map fun e => (e.1, e.2.toJson)))

/-- The response of a monitor to a request. -/
def respond (m : Monitor P) (method target : String) : Response :=
  match Route.ofPath? (Route.pathOf target) with
  | none => .bare 404
  | some route =>
    if method = "GET" then m.page route
    else if method = "HEAD" then (m.page route).head
    else .bare 405

end Monitor

end HealthMonitor

import HealthMonitor.Probe.Failure
import HealthMonitor.Text.Cut

/-!
# Verdicts

A `Verdict` is what gets reported of a check: a category and a finer detail. `Verdict.ofOutcome`
reads it off the causes of a failure, by the first of these rules that applies: a failure that is
already classified, a plain symptom, a missed deadline, a failed name look-up, a refused
connection, an operation that timed out, a failed handshake, a cause whose text speaks of one.
-/

namespace HealthMonitor

/-- A reported check. -/
structure Verdict where
  category : Category
  detail : String
  deriving DecidableEq, Repr, Inhabited

namespace Cause

/-- The failure that a cause is. -/
def failure? : Cause → Option Failure
  | .failure f => some f
  | _ => none

/-- What the operation of a cause ran into. -/
def ioKind? : Cause → Option IoKind
  | .io e => some e.kind
  | .failure (.io e) => some e.kind
  | _ => none

/-- Whether time ran out. -/
def isDeadline : Cause → Bool
  | .elapsed => true
  | .failure (.deadline _) => true
  | _ => false

def isDns : Cause → Bool
  | .failure (.dns ..) => true
  | _ => false

def isTls : Cause → Bool
  | .failure (.tls _) => true
  | _ => false

/-- The words that give a failed handshake away. -/
def tlsWords : List String := ["tls", "x509", "certificate"]

/-- Whether a text speaks of a handshake, whatever the case of its ASCII letters. -/
def speaksOfTls (message : String) : Bool :=
  tlsWords.any fun word => Text.holds word.toList (Text.lower message.toList)

end Cause

namespace Verdict

def ok : Verdict := ⟨.ok, "ok"⟩

/-- Before any check. -/
def unknown : Verdict := ⟨.unknown, "unknown"⟩

def timeout : Verdict := ⟨.timeout, "timeout"⟩

def refused : Verdict := ⟨.connectionError, "connection_refused"⟩

def unhealthy : Verdict := ⟨.unhealthy, "unhealthy"⟩

def dns : Verdict := ⟨.dnsError, "dns_error"⟩

def tls : Verdict := ⟨.tlsError, "tls_error"⟩

def error : Verdict := ⟨.error, "error"⟩

def isOk (v : Verdict) : Bool :=
  v.category = .ok

/-- The verdict that a classified failure carries. -/
def ofTag? : Failure → Option Verdict
  | .classified category detail _ => some ⟨category, detail⟩
  | _ => none

/-- The verdict of a plain symptom. -/
def ofSymptom? : Failure → Option Verdict
  | .timeout => some timeout
  | .refused => some refused
  | .unhealthy _ => some unhealthy
  | _ => none

/-- The verdict on causes without a tag and without a symptom. -/
def ofTypedCauses (causes : List Cause) : Verdict :=
  if causes.any Cause.isDeadline then timeout
  else if causes.any Cause.isDns then dns
  else if causes.any fun c => c.ioKind? = some .refused then refused
  else if causes.any fun c => c.ioKind? = some .timedOut then timeout
  else if causes.any Cause.isTls then tls
  else if causes.any fun c => Cause.speaksOfTls c.message then tls
  else error

/-- The verdict on a failure. -/
def ofFailure (f : Failure) : Verdict :=
  let causes := f.causes
  let failures := causes.filterMap Cause.failure?
  match failures.findSome? ofTag? with
  | some v => v
  | none =>
    match failures.findSome? ofSymptom? with
    | some v => v
    | none => ofTypedCauses causes

/-- The verdict on the end of a check. -/
def ofOutcome : Outcome → Verdict
  | .ok () => ok
  | .error f => ofFailure f

end Verdict

end HealthMonitor

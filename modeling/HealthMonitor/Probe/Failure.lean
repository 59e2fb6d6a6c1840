import HealthMonitor.Time.Span

/-!
# Failures of checks

A `Failure` is what a check ended with when the endpoint is not healthy: a tag that already says
how to report it, a plain symptom, or a wrapped cause. Causes nest: an input or output failure may
carry a whole failure as its payload, and a report wraps a root cause in any number of context
lines. `Failure.causes` lists what an observer sees of that nesting, the outermost cause first.
Wrapping is transparent: from a wrapped cause the list goes on behind the cause it carries.
-/

namespace HealthMonitor

/-- What a failed input or output operation ran into. -/
inductive IoKind where
  | refused
  | timedOut
  | reset
  | aborted
  | notFound
  | unexpectedEnd
  | invalidData
  | brokenPipe
  | unreachable
  | other
  deriving DecidableEq, Repr

/-- How a check can be reported. -/
inductive Category where
  | ok
  | timeout
  | connectionError
  | dnsError
  | authError
  | tlsError
  | unhealthy
  | error
  /-- No check has been completed yet. -/
  | unknown
  deriving DecidableEq, Repr, Inhabited

namespace Category

/-- The categories that a check can produce. -/
def all : List Category :=
  [ok, timeout, connectionError, dnsError, authError, tlsError, unhealthy, error]

/-- The word for a category. -/
def text : Category → String
  | ok => "ok"
  | timeout => "timeout"
  | connectionError => "connection_error"
  | dnsError => "dns_error"
  | authError => "auth_error"
  | tlsError => "tls_error"
  | unhealthy => "unhealthy"
  | error => "error"
  | unknown => "unknown"

/-- The category that a word names. -/
def ofText? (s : String) : Option Category :=
  (all ++ [unknown]).find? fun c => c.text == s

end Category

mutual

/-- Why a check failed. -/
inductive Failure where
  /-- A failure whose report is settled already. -/
  | classified (category : Category) (detail message : String)
  | timeout
  | refused
  | unhealthy (message : String)
  /-- The check was still running when its time was up. -/
  | deadline (limit : Span)
  | dns (host message : String)
  | tls (message : String)
  | io (cause : IoFailure)
  | panicked (message : String)
  /-- A root cause under context lines, the innermost line first. -/
  | wrapped (root : RootCause) (contexts : List String)

/-- A failed input or output operation. -/
inductive IoFailure where
  /-- Only what happened. -/
  | bare (kind : IoKind)
  | told (kind : IoKind) (message : String)
  /-- With a failure as its payload. -/
  | carrying (kind : IoKind) (payload : Failure)

/-- What a report starts from. -/
inductive RootCause where
  | note (text : String)
  | io (cause : IoFailure)
  /-- A timer that ran out. -/
  | elapsed
  | failure (cause : Failure)

end

instance : Inhabited Failure := ⟨.timeout⟩

instance : Inhabited IoFailure := ⟨.bare .other⟩

instance : Inhabited RootCause := ⟨.elapsed⟩

/-- How a check ended. -/
abbrev Outcome := Except Failure Unit

/-! ### Wording -/

/-- The text of a failed operation of which only its kind is known. -/
def IoKind.message : IoKind → String
  | .refused => "connection refused"
  | .timedOut => "timed out"
  | .reset => "connection reset"
  | .aborted => "connection aborted"
  | .notFound => "entity not found"
  | .unexpectedEnd => "unexpected end of file"
  | .invalidData => "invalid data"
  | .brokenPipe => "broken pipe"
  | .unreachable => "network unreachable"
  | .other => "other error"

/-- The text of a timer that ran out. -/
def elapsedMessage : String := "deadline has elapsed"

mutual

/-- A failure in words. -/
def Failure.message : Failure → String
  | .classified _ _ message => message
  | .timeout => "timeout"
  | .refused => "connection refused"
  | .unhealthy message => "unhealthy: " ++ message
  | .deadline limit => "deadline exceeded after " ++ limit.text
  | .dns host message => "dns lookup failed for " ++ host ++ ": " ++ message
  | .tls message => "tls error: " ++ message
  | .io cause => cause.message
  | .panicked message => "probe panicked: " ++ message
  | .wrapped root contexts => contexts.getLast?.getD root.message

/-- A failed operation in words: those of its payload, if it has one. -/
def IoFailure.message : IoFailure → String
  | .bare kind => kind.message
  | .told _ message => message
  | .carrying _ payload => payload.message

/-- A root cause in words. -/
def RootCause.message : RootCause → String
  | .note text => text
  | .io cause => cause.message
  | .elapsed => elapsedMessage
  | .failure cause => cause.message

end

def IoFailure.kind : IoFailure → IoKind
  | .bare kind => kind
  | .told kind _ => kind
  | .carrying kind _ => kind

/-! ### Causes -/

/-- One cause as an observer sees it. -/
inductive Cause where
  | failure (f : Failure)
  | io (e : IoFailure)
  | text (s : String)
  | elapsed

/-- A cause in words. -/
def Cause.message : Cause → String
  | .failure f => f.message
  | .io e => e.message
  | .text s => s
  | .elapsed => elapsedMessage

/-- Context lines as causes, the outermost line first. -/
def contextCauses (contexts : List String) : List Cause :=
  contexts.reverse.map Cause.text

mutual

/-- The causes behind a failure. -/
def Failure.behind : Failure → List Cause
  | .io cause => cause.behind
  | .wrapped root contexts => (contextCauses contexts ++ root.causes).drop 1
  | .classified .. => []
  | .timeout => []
  | .refused => []
  | .unhealthy _ => []
  | .deadline _ => []
  | .dns .. => []
  | .tls _ => []
  | .panicked _ => []

/-- The causes behind a failed operation: those behind its payload. -/
def IoFailure.behind : IoFailure → List Cause
  | .bare _ => []
  | .told .. => []
  | .carrying _ payload => payload.behind

/-- A root cause and the causes behind it. -/
def RootCause.causes : RootCause → List Cause
  | .note text => [.text text]
  | .io cause => .io cause :: cause.behind
  | .elapsed => [.elapsed]
  | .failure cause => .failure cause :: cause.behind

end

/-- The causes of a failure, the outermost first. A report stands for the causes it wraps, and an
input or output failure is followed by its operation. -/
def Failure.causes : Failure → List Cause
  | .wrapped root contexts => contextCauses contexts ++ root.causes
  | .io cause => .failure (.io cause) :: .io cause :: cause.behind
  | f => .failure f :: f.behind

end HealthMonitor

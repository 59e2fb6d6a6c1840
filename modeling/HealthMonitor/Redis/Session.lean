import HealthMonitor.Probe.Settings
import HealthMonitor.Probe.Verdict
import HealthMonitor.Redis.Resp

/-!
# The Redis probe

The probe logs in if it has a password, selects a database if it has one, and pings the server. Each
command waits for the reply to the one before, and the first reply that is not the expected one ends
the session.
-/

namespace HealthMonitor

/-- A probe that logs in, selects a database and pings. -/
structure RedisProbe where
  password : Option String
  db : Option UInt32
  deriving DecidableEq, Repr

namespace RedisProbe

/-- The probe of settings; an empty password is none. -/
def ofSettings (s : ProbeSettings) : RedisProbe where
  password := s.redisPassword.filter fun p => !p.isEmpty
  db := s.redisDb

/-- A probe in one line, without its password. -/
def describe (p : RedisProbe) : String :=
  let password := if p.password.isSome then "Some(\"***\")" else "None"
  let db := match p.db with
    | some n => "Some(" ++ toString n.toNat ++ ")"
    | none => "None"
  "RedisProbe \x7b password: " ++ password ++ ", db: " ++ db ++ " \x7d"

/-- A command and the simple reply that it waits for. -/
structure Step where
  command : Redis.Command
  expected : String
  /-- How messages call a reply that is not expected. -/
  unexpected : String
  deriving DecidableEq, Repr

/-- The steps of a session, in order. -/
def steps (p : RedisProbe) : List Step :=
  (p.password.toList.map fun w => ⟨["AUTH", w], "OK", "unexpected reply: "⟩)
    ++ (p.db.toList.map fun n => ⟨["SELECT", toString n.toNat], "OK", "unexpected reply: "⟩)
    ++ [⟨["PING"], "PONG", "unexpected PING reply: "⟩]

/-- The words of an error reply that refuse a login. -/
def refusalWords : List String := ["NOAUTH", "WRONGPASS"]

/-- The failure of an error reply. -/
def errorReply (text : String) : Failure :=
  let message := "redis: " ++ text
  if refusalWords.any fun w => Text.holds w.toList text.toList then
    .classified .authError "auth_error" message
  else .unhealthy message

/-- Whether a reply lets the session go on. -/
def judge (s : Step) : Redis.Reply → Outcome
  | .error text => .error (errorReply text)
  | reply =>
    if reply = .simple s.expected then .ok ()
    else .error (.unhealthy (s.unexpected ++ reply.describe))

/-- Takes steps against the bytes that a server sends before it closes: the commands that were sent
and how the session ended. -/
def run : List Step → List UInt8 → List Redis.Command × Outcome
  | [], _ => ([], .ok ())
  | s :: rest, bytes =>
    match Redis.readReply bytes with
    | .error f => ([s.command], .error f)
    | .ok (reply, bytes) =>
      match judge s reply with
      | .error f => ([s.command], .error f)
      | .ok () =>
        let (commands, outcome) := run rest bytes
        (s.command :: commands, outcome)

/-- A session with a server that sends the given bytes and closes. -/
def session (p : RedisProbe) (bytes : List UInt8) : List Redis.Command × Outcome :=
  run p.steps bytes

end RedisProbe

end HealthMonitor

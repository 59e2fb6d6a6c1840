import HealthMonitor.Text.Cut

/-!
# Kinds of dependency

The protocol families that a dependency can speak, each with the word that names it in
configurations, metrics and snapshots.
-/

namespace HealthMonitor

/-- The protocol family of a dependency. -/
inductive Kind where
  | http
  | grpc
  | tcp
  | postgres
  | mysql
  | redis
  | amqp
  | kafka
  | ldap
  deriving DecidableEq, Repr, Inhabited

namespace Kind

/-- Every kind, in the order in which lists of kinds are shown. -/
def all : List Kind := [http, grpc, tcp, postgres, mysql, redis, amqp, kafka, ldap]

/-- The word for a kind. -/
def text : Kind → String
  | http => "http"
  | grpc => "grpc"
  | tcp => "tcp"
  | postgres => "postgres"
  | mysql => "mysql"
  | redis => "redis"
  | amqp => "amqp"
  | kafka => "kafka"
  | ldap => "ldap"

/-- The kind that a word names exactly. -/
def ofText? (s : String) : Option Kind :=
  all.find? fun k => k.text == s

/-- The kind that a word names, whatever the case of its ASCII letters. -/
def parse? (s : String) : Option Kind :=
  ofText? (String.ofList (Text.lower s.toList))

theorem mem_all (k : Kind) : k ∈ all := by
  cases k <;> decide

end Kind

end HealthMonitor

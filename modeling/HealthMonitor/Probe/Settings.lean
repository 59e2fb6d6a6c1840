import HealthMonitor.ConfigError
import HealthMonitor.Json.Fields

/-!
# Probe settings

The protocol options of a dependency's probe. Each probe reads the options it knows. At most one way
of authorising an HTTP request may be set.
-/

namespace HealthMonitor

/-- A user name and a password. -/
structure BasicAuth where
  username : String
  password : String
  deriving DecidableEq, Repr

namespace BasicAuth

def toJson (a : BasicAuth) : Json :=
  Json.obj [("username", Json.text a.username), ("password", Json.text a.password)]

def ofJson? (surplus : Json.Surplus) (j : Json) : Option BasicAuth := do
  let f ← Json.fields? surplus ["username", "password"] j
  let username ← f.required? "username" Json.text?
  let password ← f.required? "password" Json.text?
  some ⟨username, password⟩

end BasicAuth

/-- Options for probes. -/
structure ProbeSettings where
  /-- The path of the request; nothing stands for the usual one. -/
  path : Option String
  /-- Whether to use TLS; nothing leaves it to the URL of the dependency. -/
  tls : Option Bool
  skipVerify : Bool
  headers : Dictionary String String
  bearerToken : Option String
  basicAuth : Option BasicAuth
  redisPassword : Option String
  redisDb : Option UInt32
  deriving DecidableEq, Repr

namespace ProbeSettings

/-- Settings that set nothing. -/
def none : ProbeSettings where
  path := Option.none
  tls := Option.none
  skipVerify := false
  headers := Dictionary.empty
  bearerToken := Option.none
  basicAuth := Option.none
  redisPassword := Option.none
  redisDb := Option.none

instance : Inhabited ProbeSettings := ⟨none⟩

/-- The name of the header that carries a credential, in lower case. -/
def authHeader : String := "authorization"

/-- Whether a header name is that of the credential, in any case. -/
def isAuthHeader (name : String) : Bool :=
  Text.lower name.toList == authHeader.toList

/-- Refuses more than one way of authorising a request. -/
def checkAuth (s : ProbeSettings) : Except ConfigError Unit :=
  let ways := [s.bearerToken.isSome, s.basicAuth.isSome, s.headers.keys.any isAuthHeader]
  if 1 < ways.countP id then .error .conflictingAuth else .ok ()

/-! ### JSON -/

/-- The member of an option that is set. -/
def member (name : String) (write : α → Json) : Option α → List (String × Json)
  | some a => [(name, write a)]
  | Option.none => []

/-- The settings as an object, without the options and headers that are not set. -/
def toJson (s : ProbeSettings) : Json :=
  Json.obj <|
    member "http_path" Json.text s.path
      ++ member "http_tls" Json.bool s.tls
      ++ [("http_tls_skip_verify", Json.bool s.skipVerify)]
      ++ (if s.headers.isEmpty then [] else [("http_headers", Json.ofDictionary s.headers)])
      ++ member "http_bearer_token" Json.text s.bearerToken
      ++ member "http_basic_auth" BasicAuth.toJson s.basicAuth
      ++ member "redis_password" Json.text s.redisPassword
      ++ member "redis_db" (fun n => Json.nat n.toNat) s.redisDb

/-- The names of the options. -/
def names : List String :=
  ["http_path", "http_tls", "http_tls_skip_verify", "http_headers", "http_bearer_token",
    "http_basic_auth", "redis_password", "redis_db"]

/-- A number of 32 bits. -/
def wordOfJson? (j : Json) : Option UInt32 :=
  (Json.natural? UInt32.size j).map UInt32.ofNat

/-- Settings from their given options. -/
def ofFields? (surplus : Json.Surplus) (f : Json.Fields) : Option ProbeSettings := do
  let path ← f.optional? "http_path" Json.text?
  let tls ← f.optional? "http_tls" Json.bool?
  let skipVerify ← f.withDefault? "http_tls_skip_verify" false Json.bool?
  let headers ← f.withDefault? "http_headers" Dictionary.empty Json.dictionary?
  let bearerToken ← f.optional? "http_bearer_token" Json.text?
  let basicAuth ← f.optional? "http_basic_auth" (BasicAuth.ofJson? surplus)
  let redisPassword ← f.optional? "redis_password" Json.text?
  let redisDb ← f.optional? "redis_db" wordOfJson?
  some ⟨path, tls, skipVerify, headers, bearerToken, basicAuth, redisPassword, redisDb⟩

def ofJson? (surplus : Json.Surplus) (j : Json) : Option ProbeSettings :=
  (Json.fields? surplus names j).bind (ofFields? surplus)

end ProbeSettings

end HealthMonitor

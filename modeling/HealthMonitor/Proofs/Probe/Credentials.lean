import HealthMonitor.Probe.Http
import HealthMonitor.Proofs.Text.Case

/-!
# Credentials and hosts in a request

A request starts with its host and the name of the client, and the headers of its probe come behind
them: those of the settings, and the credential that the settings ask for. Headers of one name, in
whatever case of letters, stand side by side; none replaces another.

Settings are accepted if they name one way of authorising a request at most
(`ProbeSettings.checkAuth_eq_ok_iff`), and all headers that are credentials count as one way. So a
request has the one credential that is asked for, unless the settings spell it in several cases, and
one host, unless the settings name another (`one_credential_one_host`). `spelled_twice` has both.
-/

namespace HealthMonitor

namespace Dictionary

variable {κ α : Type} [LT κ] [DecidableLT κ] [DecidableEq κ]

/-- An entry that a filter by keys drops changes nothing behind the filter. -/
theorem filter_insertEntry_of_neg {p : κ → Bool} {key : κ} (h : p key = false) (value : α)
    (es : List (κ × α)) :
    (insertEntry key value es).filter (fun e => p e.1) = es.filter fun e => p e.1 := by
  induction es with
  | nil => simp [insertEntry, h]
  | cons e rest ih =>
    unfold insertEntry
    split
    · exact List.filter_cons_of_neg (by simp [h])
    · split
      next heq =>
        rw [List.filter_cons_of_neg (by simp [h]), List.filter_cons_of_neg (by simp [← heq, h])]
      next => rw [List.filter_cons, List.filter_cons, ih]

/-- An entry that is the only one to pass a filter by keys. -/
theorem filter_insertEntry_of_pos {p : κ → Bool} {key : κ} (h : p key = true) (value : α)
    {es : List (κ × α)} (others : es.filter (fun e => p e.1) = []) :
    (insertEntry key value es).filter (fun e => p e.1) = [(key, value)] := by
  induction es with
  | nil => simp [insertEntry, h]
  | cons e rest ih =>
    have he : p e.1 = false := by
      simpa using List.filter_eq_nil_iff.mp others e List.mem_cons_self
    have hrest : rest.filter (fun e => p e.1) = [] := by
      rwa [List.filter_cons_of_neg (by simp [he])] at others
    have hne : key ≠ e.1 := by
      rintro rfl
      simp [h] at he
    unfold insertEntry
    split
    · rw [List.filter_cons_of_pos (by simpa using h), others]
    · rw [List.filter_cons_of_neg (by simp [he]), ih hrest]

end Dictionary

namespace HttpRequest

/-- Whether two texts name one header: the case of letters does not count. -/
def sameName (a b : String) : Bool :=
  Text.lower a.toList == Text.lower b.toList

@[simp] theorem sameName_self (a : String) : sameName a a = true :=
  beq_self_eq_true _

/-- The values of the headers of a name, in the order in which they are sent. -/
def valuesOf (r : HttpRequest) (name : String) : List String :=
  (r.headers.filter fun h => sameName (String.ofList h.1) name).map fun h => String.ofList h.2

/-- A name is the same in lower case. -/
theorem sameName_lower (a : List Char) (b : String) :
    sameName (String.ofList (Text.lower a)) b = sameName (String.ofList a) b := by
  simp [sameName]

end HttpRequest

open HttpRequest

namespace ProbeSettings

/-- The values of the headers of a name among those of the settings. -/
def headersNamed (s : ProbeSettings) (name : String) : List String :=
  (s.headers.entries.filter fun h => sameName h.1 name).map Prod.snd

/-- The credentials that settings ask for: a token, a user with a password, and headers. -/
def credentials (s : ProbeSettings) : List String :=
  (s.bearerToken.map fun token => "Bearer " ++ token).toList
    ++ (s.basicAuth.map HttpProbe.basicValue).toList ++ s.headersNamed HttpProbe.credential

theorem isAuthHeader_eq (name : String) : isAuthHeader name = sameName name HttpProbe.credential :=
  rfl

theorem any_isAuthHeader_eq_false_iff {s : ProbeSettings} :
    s.headers.keys.any isAuthHeader = false ↔ s.headersNamed HttpProbe.credential = [] := by
  simp [headersNamed, Dictionary.keys, isAuthHeader_eq, List.filter_eq_nil_iff]

/-- **Settings are accepted** if they leave two of the three ways of authorising a request open. -/
theorem checkAuth_eq_ok_iff {s : ProbeSettings} :
    s.checkAuth = .ok () ↔
      s.bearerToken = Option.none ∧ s.basicAuth = Option.none ∨
      s.bearerToken = Option.none ∧ s.headersNamed HttpProbe.credential = [] ∨
      s.basicAuth = Option.none ∧ s.headersNamed HttpProbe.credential = [] := by
  rw [← any_isAuthHeader_eq_false_iff, checkAuth]
  cases s.bearerToken <;> cases s.basicAuth <;> cases s.headers.keys.any isAuthHeader <;> simp

end ProbeSettings

namespace HttpProbe

open ProbeSettings

/-- A request that can be put together has the host, the client and the probe's headers. -/
theorem headers_of_request {p : HttpProbe} {e : Endpoint} {r : HttpRequest}
    (built : p.request e = .ok r) :
    r.headers = (p.requestHeaders e).map fun h => (Text.lower h.1.toList, h.2.toList) := by
  unfold request at built
  dsimp only at built
  split at built
  · rw [← Except.ok.inj built, List.map_map]
    rfl
  · cases built

theorem valuesOf_request {p : HttpProbe} {e : Endpoint} {r : HttpRequest}
    (built : p.request e = .ok r) (name : String) :
    r.valuesOf name =
      ((p.requestHeaders e).filter fun h => sameName h.1 name).map Prod.snd := by
  rw [valuesOf, headers_of_request built, List.filter_map, List.map_map]
  simp [Function.comp_def, sameName_lower]

/-- A token or a user goes under the name of the credential, so headers of other names stay. -/
theorem filter_headersOf (s : ProbeSettings) {name : String}
    (other : sameName credential name = false) :
    (headersOf s).entries.filter (fun h => sameName h.1 name) =
      s.headers.entries.filter fun h => sameName h.1 name := by
  have hinsert (d : Dictionary String String) (value : String) :
      (d.insert credential value).entries.filter (fun h => sameName h.1 name) =
        d.entries.filter fun h => sameName h.1 name :=
    Dictionary.filter_insertEntry_of_neg (p := fun k => sameName k name) other value d.entries
  unfold headersOf
  cases s.bearerToken <;> cases s.basicAuth <;> simp only [hinsert]

/-- **The credentials of a probe** are those that accepted settings ask for. -/
theorem credentials_headersOf {s : ProbeSettings} (accepted : s.checkAuth = .ok ()) :
    ((headersOf s).entries.filter fun h => sameName h.1 credential).map Prod.snd =
      s.credentials := by
  have hinsert (value : String) (free : s.headersNamed credential = []) :
      ((s.headers.insert credential value).entries.filter
        fun h => sameName h.1 credential).map Prod.snd = [value] := by
    have hfiltered := Dictionary.filter_insertEntry_of_pos (p := fun k => sameName k credential)
      (sameName_self credential) value (List.map_eq_nil_iff.mp free)
    exact congrArg (List.map Prod.snd) hfiltered
  rcases checkAuth_eq_ok_iff.mp accepted with ⟨token, user⟩ | ⟨token, free⟩ | ⟨user, free⟩
  · simp [headersOf, credentials, token, user, headersNamed]
  · cases user : s.basicAuth with
    | none => simp [headersOf, credentials, token, user, headersNamed]
    | some a => simp [headersOf, credentials, token, user, free, hinsert]
  · cases token : s.bearerToken with
    | none => simp [headersOf, credentials, token, user, headersNamed]
    | some t => simp [headersOf, credentials, token, user, free, hinsert]

/-- **What a request carries.** For accepted settings the credentials of a request are those that
the settings ask for, and its hosts are the endpoint's and those of the settings. So there is one
credential at most just if the headers of the settings have one at most, and there is one host just
if they have none. -/
theorem one_credential_one_host {s : ProbeSettings} {e : Endpoint} {r : HttpRequest}
    (accepted : s.checkAuth = .ok ()) (built : (ofSettings s).request e = .ok r) :
    r.valuesOf "Authorization" = s.credentials ∧
      r.valuesOf "Host" = e.address :: s.headersNamed "Host" ∧
      ((r.valuesOf "Authorization").length ≤ 1 ↔ (s.headersNamed "Authorization").length ≤ 1) ∧
      ((r.valuesOf "Host").length = 1 ↔ s.headersNamed "Host" = []) := by
  have hcredentials : r.valuesOf "Authorization" = s.credentials := by
    have hhost : sameName "host" credential = false := by decide
    have hagent : sameName "user-agent" credential = false := by decide
    have hvalues := valuesOf_request built credential
    simp only [requestHeaders, List.filter_cons, hhost, hagent] at hvalues
    exact hvalues.trans (credentials_headersOf accepted)
  have hhosts : r.valuesOf "Host" = e.address :: s.headersNamed "Host" := by
    have hhost : sameName "host" "Host" = true := by decide
    have hagent : sameName "user-agent" "Host" = false := by decide
    have hvalues := valuesOf_request built "Host"
    simp only [requestHeaders, List.filter_cons, hhost, hagent] at hvalues
    rw [hvalues, headersNamed, ← filter_headersOf s (by decide)]
    rfl
  refine ⟨hcredentials, hhosts, ?_, ?_⟩
  · rw [hcredentials, credentials]
    rcases checkAuth_eq_ok_iff.mp accepted with ⟨token, user⟩ | ⟨token, free⟩ | ⟨user, free⟩
    · rw [token, user]
      rfl
    · rw [show s.headersNamed "Authorization" = [] from free, token]
      cases s.basicAuth <;> simp [free]
    · rw [show s.headersNamed "Authorization" = [] from free, user]
      cases s.bearerToken <;> simp [free]
  · rw [hhosts, List.length_cons, Nat.add_eq_right, List.length_eq_zero_iff]

/-- Settings with a token and a header of another name. -/
def tokenSettings : ProbeSettings :=
  { ProbeSettings.none with
    headers := Dictionary.ofList [("X-Probe", "depwatch")]
    bearerToken := some "tok-1" }

/-- A token is the one credential of its request, and the endpoint the one host. -/
theorem token_alone : ∃ r,
    (ofSettings tokenSettings).request (Endpoint.plain "api.svc" 80) = .ok r ∧
    r.valuesOf "Authorization" = ["Bearer tok-1"] ∧ r.valuesOf "Host" = ["api.svc:80"] := by
  refine ⟨_, rfl, ?_⟩
  obtain ⟨hcredentials, hhosts, -⟩ :=
    one_credential_one_host (s := tokenSettings) (e := Endpoint.plain "api.svc" 80) rfl rfl
  exact ⟨hcredentials, hhosts⟩

/-- Settings that spell the credential in two cases, and name a host. -/
def spelledSettings : ProbeSettings :=
  { ProbeSettings.none with
    headers := Dictionary.ofList
      [("Authorization", "Bearer a"), ("authorization", "Bearer b"), ("Host", "other.svc")] }

/-- These settings are accepted, and the request has two credentials and two hosts. -/
theorem spelled_twice : spelledSettings.checkAuth = .ok () ∧
    ∃ r, (ofSettings spelledSettings).request (Endpoint.plain "api.svc" 80) = .ok r ∧
      r.valuesOf "Authorization" = ["Bearer a", "Bearer b"] ∧
      r.valuesOf "Host" = ["api.svc:80", "other.svc"] :=
  ⟨rfl, _, rfl, by decide, by decide⟩

end HttpProbe

end HealthMonitor

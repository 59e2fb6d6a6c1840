import HealthMonitor.Proofs.Monitor.Build
import Mathlib.Data.List.Forall2

/-!
# Code and environment

Code says what a dependency is like, and the environment fills in what the code leaves out. Of the
criticality and of the labels of a spec that is just what happens. A label that an explicit endpoint
sets itself comes last instead: the labels of the environment are put on every endpoint together
with those of the spec, and replace it (`DependencySpec.get?_relabel`). So code wins for an endpoint
just if the environment does not speak against one of its own labels (`code_or_environment`), and
otherwise it does not (`environment_replaces_label`).
-/

namespace HealthMonitor

namespace Environment

/-- A variable gives a label to a dependency: its name is that of the dependency's label variables,
followed by the label in any case of letters. -/
def Gives (env : Environment) (dependency label value : String) : Prop :=
  ∃ key : List Char, key ≠ [] ∧ label = String.ofList (Text.lower key) ∧
    (String.ofList (labelRoot dependency ++ key), value) ∈ env.entries

/-- A variable gives a label if a key follows the prefix of the dependency, and the label is that
key in lower case. -/
theorem labelOf?_eq_some_iff {dependency name label : String} :
    labelOf? dependency name = some label ↔ ∃ key : List Char, key ≠ [] ∧
      label = String.ofList (Text.lower key) ∧
      name = String.ofList (labelRoot dependency ++ key) := by
  unfold labelOf?
  constructor
  · intro h
    split at h
    next c rest hroot =>
      refine ⟨c :: rest, List.cons_ne_nil c rest, (Option.some.inj h).symm, ?_⟩
      have happend := List.isPrefixOf?_eq_some_iff_append_eq.mp hroot
      rw [happend, String.ofList_toList]
    next => cases h
  · rintro ⟨key, hkey, rfl, rfl⟩
    have hroot : (labelRoot dependency).isPrefixOf?
        (String.ofList (labelRoot dependency ++ key)).toList = some key := by
      rw [List.isPrefixOf?_eq_some_iff_append_eq, String.toList_ofList]
    obtain ⟨c, rest, rfl⟩ := List.exists_cons_of_ne_nil hkey
    rw [hroot]

/-- The labels of a dependency are those that a variable gives. -/
theorem mem_labels_iff {env : Environment} {dependency label value : String} :
    (label, value) ∈ env.labels dependency ↔ env.Gives dependency label value := by
  simp only [labels, List.mem_filterMap, Option.map_eq_some_iff, labelOf?_eq_some_iff]
  constructor
  · rintro ⟨⟨name, v⟩, hmem, l, ⟨key, hkey, hl, hname⟩, heq⟩
    obtain ⟨rfl, rfl⟩ := Prod.mk.inj heq
    exact ⟨key, hkey, hl, hname ▸ hmem⟩
  · rintro ⟨key, hkey, hl, hmem⟩
    exact ⟨_, hmem, label, ⟨key, hkey, hl, rfl⟩, rfl⟩

/-- The value that the environment supplies for a label of a dependency: that of the first variable
that gives one. -/
def label? (env : Environment) (dependency label : String) : Option String :=
  Dictionary.lookup label (env.labels dependency)

theorem gives_of_label? {env : Environment} {dependency label value : String}
    (h : env.label? dependency label = some value) : env.Gives dependency label value :=
  mem_labels_iff.mp (Dictionary.mem_of_lookup h)

theorem label?_eq_none_iff {env : Environment} {dependency label : String} :
    env.label? dependency label = none ↔ ∀ value, ¬ env.Gives dependency label value := by
  rw [label?, Dictionary.lookup_eq_none_iff]
  exact forall_congr' fun value => not_congr mem_labels_iff

theorem isSome_label?_iff {env : Environment} {dependency label : String} :
    (env.label? dependency label).isSome = true ↔ ∃ value, env.Gives dependency label value := by
  rw [Option.isSome_iff_ne_none, Ne, label?_eq_none_iff, not_forall_not]

end Environment

namespace DependencySpec

variable {P : Type}

/-! ### Labels -/

/-- Of a label in code and in the environment that in code counts. -/
theorem get?_allLabels (s : DependencySpec P) (env : Environment) (k : String) :
    (s.allLabels env).get? k = (s.labels.get? k).or (env.label? s.name k) :=
  Dictionary.get?_foldl_insertNew s.labels (env.labels s.name) k

/-- **The label of an endpoint** is that of the spec, else that of the environment, else its own. -/
theorem get?_relabel (s : DependencySpec P) (env : Environment) (e : Endpoint) (k : String) :
    (relabel (s.allLabels env) e).labels.get? k =
      (s.labels.get? k).or ((env.label? s.name k).or (e.labels.get? k)) := by
  rw [relabel, Dictionary.get?_insertAll_entries, get?_allLabels, Option.or_assoc]

/-- What becomes of an endpoint of a spec: it stays where it is, and each of its labels is the
spec's, else one that a variable gives, else its own. -/
structure Relabeled (s : DependencySpec P) (env : Environment) (e e' : Endpoint) : Prop where
  host : e'.host = e.host
  port : e'.port = e.port
  spec : ∀ k v, s.labels.get? k = some v → e'.labels.get? k = some v
  given : ∀ k, s.labels.get? k = none → (∃ v, env.Gives s.name k v) →
    ∃ v, env.Gives s.name k v ∧ e'.labels.get? k = some v
  own : ∀ k, s.labels.get? k = none → (∀ v, ¬ env.Gives s.name k v) →
    e'.labels.get? k = e.labels.get? k

/-- An endpoint gets the labels of the spec, then those of the environment, and keeps the rest of
its own. -/
theorem relabeled (s : DependencySpec P) (env : Environment) (e : Endpoint) :
    s.Relabeled env e (relabel (s.allLabels env) e) where
  host := rfl
  port := rfl
  spec k v hv := by rw [get?_relabel, hv, Option.some_or]
  given k hk hgiven := by
    cases hlabel : env.label? s.name k with
    | none =>
      obtain ⟨v, hv⟩ := hgiven
      exact absurd hv (Environment.label?_eq_none_iff.mp hlabel v)
    | some v =>
      refine ⟨v, Environment.gives_of_label? hlabel, ?_⟩
      rw [get?_relabel, hk, hlabel, Option.none_or, Option.some_or]
  own k hk hgiven := by
    rw [get?_relabel, hk, Environment.label?_eq_none_iff.mpr hgiven, Option.none_or,
      Option.none_or]

/-! ### Code first -/

/-- Every label that code sets for an endpoint, in the spec or on the endpoint itself, gets a value
that code sets. -/
def CodeWins (s : DependencySpec P) (e e' : Endpoint) : Prop :=
  ∀ k, (s.labels.get? k).isSome = true ∨ (e.labels.get? k).isSome = true →
    ∃ v, e'.labels.get? k = some v ∧ (s.labels.get? k = some v ∨ e.labels.get? k = some v)

/-- The environment supplies another value for a label that only the endpoint itself sets. -/
def Contradicts (s : DependencySpec P) (env : Environment) (e : Endpoint) : Prop :=
  ∃ k v w, s.labels.get? k = none ∧ e.labels.get? k = some v ∧ env.label? s.name k = some w ∧ w ≠ v

/-- Code wins unless the environment says something else than the endpoint in code. -/
theorem codeWins_iff (s : DependencySpec P) (env : Environment) (e : Endpoint) :
    s.CodeWins e (relabel (s.allLabels env) e) ↔ ¬ s.Contradicts env e := by
  constructor
  · rintro wins ⟨k, v, w, hspec, hown, hgiven, hne⟩
    obtain ⟨x, hx, hcode⟩ := wins k (Or.inr (by simp [hown]))
    rw [get?_relabel, hspec, hgiven, Option.none_or, Option.some_or] at hx
    obtain rfl := Option.some.inj hx
    rcases hcode with hcode | hcode
    · simp [hspec] at hcode
    · exact hne (Option.some.inj (hcode.symm.trans hown))
  · intro agrees k hset
    rw [get?_relabel]
    cases hspec : s.labels.get? k with
    | some v => exact ⟨v, rfl, Or.inl rfl⟩
    | none =>
      obtain ⟨v, hown⟩ : ∃ v, e.labels.get? k = some v := by
        simpa [hspec, Option.isSome_iff_exists] using hset
      refine ⟨v, ?_, Or.inr hown⟩
      cases hgiven : env.label? s.name k with
      | none => exact hown
      | some w =>
        by_contra hne
        exact agrees ⟨k, v, w, hspec, hown, hgiven, fun hw => hne (congrArg some hw)⟩

end DependencySpec

namespace Blueprint

open DependencySpec

variable {P : Type}

/-- **What is set in code wins over the environment**, but for the labels that endpoints set
themselves. In a spec that can be resolved:

* the criticality is that of the code, else that of the environment;
* each endpoint of the source is labelled by the spec, then by the environment, then by itself;
* so all labels that code sets for it have values set in code just if the environment supplies no
  other value for a label that only the endpoint sets. -/
theorem code_or_environment {b : Blueprint P} {serial : Nat} {s : DependencySpec P}
    {r : Resolved P} (resolved : (b.resolveSpec serial s).result = .ok r) :
    r.dependency.critical = s.critical.or (b.environment.critical? s.name) ∧
    ∃ source es, s.source = some source ∧ source.endpoints s.kind = .ok es ∧
      List.Forall₂
        (fun e e' => s.Relabeled b.environment e e' ∧
          (s.CodeWins e e' ↔ ¬ s.Contradicts b.environment e))
        es r.dependency.endpoints := by
  -- the probe and the validation change nothing about what has been prepared
  obtain ⟨settings, prepared, -⟩ := (resolveSpec_ok resolved).prepared
  obtain ⟨source, es, critical, hsource, hes, hcritical, -, hd⟩ := prepare_ok prepared
  refine ⟨?_, source, es, hsource, hes, ?_⟩
  · rw [hd, ← hcritical, Option.orElse_eq_orElse, Option.orElse_eq_or]
  · rw [hd]
    refine List.forall₂_map_right_iff.mpr (List.forall₂_same.mpr fun e _ => ?_)
    exact ⟨s.relabeled b.environment e, s.codeWins_iff b.environment e⟩

/-! ### A database in a zone -/

/-- An endpoint that says itself in which zone it is. -/
def zonedEndpoint : Endpoint :=
  ⟨"a", 1, Dictionary.ofList [("zone", "east")]⟩

/-- The database of a team at this endpoint. -/
def zonedSpec : DependencySpec Unit where
  name := "db"
  kind := .tcp
  source := some (.listed [zonedEndpoint])
  critical := some true
  labels := Dictionary.ofList [("team", "core")]
  check := CheckOverrides.none
  settings := ProbeSettings.none
  probe := some ()

/-- Variables that speak against the spec, and supply a label that code does not set. -/
def otherTeam : Environment :=
  ⟨[("DEPWATCH_DB_CRITICAL", "no"), ("DEPWATCH_DB_LABEL_TEAM", "web"),
    ("DEPWATCH_DB_LABEL_TIER", "gold")]⟩

/-- A variable that speaks against the endpoint. -/
def otherZone : Environment :=
  ⟨[("DEPWATCH_DB_LABEL_ZONE", "west")]⟩

/-- Code wins over the first environment. -/
theorem team_wins : ∃ r,
    ((plain none ProbeRegistry.empty otherTeam).resolveSpec 0 zonedSpec).result = .ok r ∧
    r.dependency.critical = some true ∧
    (∀ e ∈ r.dependency.endpoints, zonedSpec.CodeWins zonedEndpoint e) ∧
    r.dependency.endpoints.map (fun e => e.labels.entries) =
      [[("team", "core"), ("tier", "gold"), ("zone", "east")]] := by
  refine ⟨_, rfl, ?_⟩
  obtain ⟨hcritical, source, es, hsource, hes, hall⟩ :=
    code_or_environment (b := plain none ProbeRegistry.empty otherTeam) (s := zonedSpec) rfl
  obtain rfl := Option.some.inj hsource
  obtain rfl := Except.ok.inj hes
  have agrees : ¬ zonedSpec.Contradicts otherTeam zonedEndpoint := by
    rintro ⟨k, v, w, -, hown, hgiven, -⟩
    obtain ⟨rfl, rfl⟩ : k = "zone" ∧ v = "east" :=
      Prod.mk.inj (List.mem_singleton.mp (Dictionary.mem_of_get? hown))
    cases hgiven
  refine ⟨hcritical, fun e he => ?_, rfl⟩
  obtain ⟨⟨-, wins⟩, -⟩ := List.forall₂_cons.mp hall
  obtain rfl := List.mem_singleton.mp he
  exact wins.mpr agrees

/-- The second environment wins over the endpoint. -/
theorem environment_replaces_label : ∃ r,
    ((plain none ProbeRegistry.empty otherZone).resolveSpec 0 zonedSpec).result = .ok r ∧
    zonedEndpoint.labels.get? "zone" = some "east" ∧ zonedSpec.labels.get? "zone" = none ∧
    r.dependency.endpoints.map (fun e => e.labels.get? "zone") = [some "west"] :=
  ⟨_, rfl, rfl, rfl, rfl⟩

end Blueprint

end HealthMonitor

import HealthMonitor.Proofs.Monitor.Variables

/-!
# The order of an environment

An environment lists its variables in some order, and nobody promises which. Looking one up does not
depend on it, and neither does what goes wrong with a spec, nor which labels its endpoints have
(`Blueprint.outline_of_perm`). The value of a label does: labels are named in lower case, so two
variables can give the same one, and of these the first counts. `order_free_iff` says that this is
all that there is to it: a spec that can be resolved is resolved alike in every order just if the
variables that give it a label agree on the value (`DependencySpec.Settled`).
-/

namespace HealthMonitor

/-! ### What the values of labels leave open -/

/-- An endpoint without the values of its labels. -/
def Endpoint.outline (e : Endpoint) : String × UInt16 × List String :=
  (e.host, e.port, e.labels.keys)

namespace Dependency

/-- A dependency without the values of its labels. -/
def outline (d : Dependency) :
    String × Kind × Option Bool × List (String × UInt16 × List String) × CheckPlan :=
  (d.name, d.kind, d.critical, d.endpoints.map Endpoint.outline, d.plan)

theorem checkEndpoint_of_outline {e e' : Endpoint} (h : e.outline = e'.outline) (name : String)
    (index : Nat) : checkEndpoint name index e = checkEndpoint name index e' := by
  obtain ⟨hhost, hport, hkeys⟩ : e.host = e'.host ∧ e.port = e'.port ∧
      e.labels.keys = e'.labels.keys := by simpa [Endpoint.outline] using h
  rw [checkEndpoint, checkEndpoint, checkLabels, checkLabels, hhost, hport, hkeys]

theorem checkEndpoints_of_outline {es es' : List Endpoint}
    (h : es.map Endpoint.outline = es'.map Endpoint.outline) (name : String) (index : Nat) :
    checkEndpoints name index es = checkEndpoints name index es' := by
  induction es generalizing es' index with
  | nil =>
    obtain rfl := List.map_eq_nil_iff.mp h.symm
    rfl
  | cons e es ih =>
    obtain ⟨e', es', rfl, he, hes⟩ := List.map_eq_cons_iff.mp h.symm
    rw [checkEndpoints, checkEndpoints, checkEndpoint_of_outline he.symm, ih hes.symm]

/-- **The validation does not look at the values of labels.** -/
theorem validate_of_outline {d d' : Dependency} (h : d.outline = d'.outline) :
    d.validate = d'.validate := by
  obtain ⟨hname, -, hcritical, hendpoints, hplan⟩ : d.name = d'.name ∧ d.kind = d'.kind ∧
      d.critical = d'.critical ∧
      d.endpoints.map Endpoint.outline = d'.endpoints.map Endpoint.outline ∧
      d.plan = d'.plan := by simpa [outline] using h
  have hempty : d.endpoints.isEmpty = d'.endpoints.isEmpty := by
    rw [← List.isEmpty_map (f := Endpoint.outline), hendpoints, List.isEmpty_map]
  rw [validate, validate, hname, hcritical, hempty, hplan,
    checkEndpoints_of_outline hendpoints]

end Dependency

variable {P : Type}

/-- What has been resolved, without the values of labels. -/
def Resolved.outline (r : Resolved P) :=
  (r.dependency.outline, r.handle)

/-- What has become of a spec, without the values of labels. -/
def Resolution.outline (x : Resolution P) :=
  (x.result.map Resolved.outline, x.requests)

/-- A refusal has no labels, so nothing is left open. -/
theorem Resolution.eq_of_outline {x y : Resolution P} (h : x.outline = y.outline)
    {cause : ConfigError} (refused : y.result = .error cause) : x = y := by
  obtain ⟨result, requests⟩ := x
  obtain ⟨result', requests'⟩ := y
  obtain ⟨hresult, rfl⟩ := Prod.mk.inj h
  obtain rfl : result' = .error cause := refused
  cases result with
  | ok r => cases hresult
  | error cause' =>
    obtain rfl : cause' = cause := Except.error.inj hresult
    rfl

/-! ### Variables in another order -/

namespace Environment

variable {env env' : Environment}

theorem critical?_of_perm (perm : env'.entries.Perm env.entries)
    (distinct : (env.entries.map Prod.fst).Nodup) (dependency : String) :
    env'.critical? dependency = env.critical? dependency := by
  rw [critical?, critical?, value?, value?, lookup_of_perm perm distinct]

theorem gives_of_perm (perm : env'.entries.Perm env.entries) {dependency label value : String} :
    env'.Gives dependency label value ↔ env.Gives dependency label value := by
  simp only [Gives, perm.mem_iff]

theorem isSome_label?_of_perm (perm : env'.entries.Perm env.entries) (dependency label : String) :
    (env'.label? dependency label).isSome = (env.label? dependency label).isSome := by
  rw [Bool.eq_iff_iff, isSome_label?_iff, isSome_label?_iff]
  exact exists_congr fun value => gives_of_perm perm

/-- Each variable that gives a label can be listed first, and then it counts. -/
theorem exists_perm_label? {dependency label value : String}
    (h : env.Gives dependency label value) :
    ∃ env' : Environment, env'.entries.Perm env.entries ∧
      env'.label? dependency label = some value := by
  obtain ⟨key, hkey, hlabel, hmem⟩ := h
  refine ⟨⟨_ :: env.entries.erase _⟩, (List.perm_cons_erase hmem).symm, ?_⟩
  have hfirst : labelOf? dependency (String.ofList (labelRoot dependency ++ key)) = some label :=
    labelOf?_eq_some_iff.mpr ⟨key, hkey, hlabel, rfl⟩
  simp only [label?, labels, List.filterMap_cons, hfirst, Option.map_some, Dictionary.lookup,
    if_true]

end Environment

namespace DependencySpec

variable {s : DependencySpec P} {env env' : Environment}

/-- The variables that give a label which the spec leaves open agree on its value. -/
def Settled (s : DependencySpec P) (env : Environment) : Prop :=
  ∀ label v w, s.labels.get? label = none → env.Gives s.name label v →
    env.Gives s.name label w → v = w

theorem label?_of_settled (perm : env'.entries.Perm env.entries) (settled : s.Settled env)
    {label : String} (hopen : s.labels.get? label = none) :
    env'.label? s.name label = env.label? s.name label := by
  have hsome := Environment.isSome_label?_of_perm perm s.name label
  cases hl : env.label? s.name label with
  | none => simpa [hl] using hsome
  | some v =>
    obtain ⟨w, hw⟩ := Option.isSome_iff_exists.mp (hsome.trans (by rw [hl]; rfl))
    rw [hw, settled label w v hopen
      ((Environment.gives_of_perm perm).mp (Environment.gives_of_label? hw))
      (Environment.gives_of_label? hl)]

/-- **Settled labels are the same in every order.** -/
theorem allLabels_of_settled (perm : env'.entries.Perm env.entries) (settled : s.Settled env) :
    s.allLabels env' = s.allLabels env := by
  refine Dictionary.ext_get? fun k => ?_
  rw [get?_allLabels, get?_allLabels]
  cases hk : s.labels.get? k with
  | none => rw [label?_of_settled perm settled hk]
  | some v => rfl

theorem relabel_outline_of_perm (perm : env'.entries.Perm env.entries) (e : Endpoint) :
    (relabel (s.allLabels env') e).outline = (relabel (s.allLabels env) e).outline := by
  have hkeys : (relabel (s.allLabels env') e).labels.keys =
      (relabel (s.allLabels env) e).labels.keys := by
    refine Dictionary.keys_eq_of_isSome fun k => ?_
    simp only [get?_relabel, Option.isSome_or, Environment.isSome_label?_of_perm perm]
  exact congrArg (fun keys => (e.host, e.port, keys)) hkeys

/-- The environment has no say in what goes wrong while a spec is prepared, but for the criticality
that it gives. -/
theorem prepare_of_critical? (critical : env'.critical? s.name = env.critical? s.name)
    (fallback : CheckOverrides) :
    (∃ cause, s.prepare env' fallback = .error cause ∧ s.prepare env fallback = .error cause) ∨
    ∃ d settings, s.prepare env fallback = .ok (d, settings) ∧
      ∃ es : List Endpoint, d.endpoints = es.map (relabel (s.allLabels env)) ∧
      s.prepare env' fallback =
        .ok ({ d with endpoints := es.map (relabel (s.allLabels env')) }, settings) := by
  -- the checks come one after another, and each sees the same in both environments
  simp only [prepare, critical]
  rcases Dependency.checkName s.name with cause | ⟨⟩
  · exact Or.inl ⟨cause, rfl, rfl⟩
  rcases s.source with _ | source
  · exact Or.inl ⟨_, rfl, rfl⟩
  simp only [bind, Except.bind]
  rcases source.endpoints s.kind with cause | es
  · exact Or.inl ⟨cause, rfl, rfl⟩
  rcases s.critical <|> env.critical? s.name with _ | critical
  · exact Or.inl ⟨_, rfl, rfl⟩
  simp only
  rcases Dependency.checkLabels s.labels with cause | ⟨⟩
  · exact Or.inl ⟨cause, rfl, rfl⟩
  simp only
  rcases (s.probeSettings source).checkAuth with cause | ⟨⟩
  · exact Or.inl ⟨cause, rfl, rfl⟩
  · exact Or.inr ⟨_, _, rfl, es, rfl, rfl⟩

end DependencySpec

namespace Blueprint

open DependencySpec

variable {b : Blueprint P} {env : Environment} {s : DependencySpec P}

theorem accept_of_outline {d d' : Dependency} (h : d'.outline = d.outline) (handle : Handle P) :
    (accept d' handle).map Resolved.outline = (accept d handle).map Resolved.outline := by
  rw [accept, accept, Dependency.validate_of_outline h]
  cases d.validate with
  | error cause => rfl
  | ok => simp only [Except.map, Resolved.outline, h]

/-- **In every order** a spec is refused for the same cause, or resolved into the same dependency
but for the values of labels, with the same probe. -/
theorem outline_of_perm (perm : env.entries.Perm b.environment.entries)
    (distinct : (b.environment.entries.map Prod.fst).Nodup) (serial : Nat)
    (s : DependencySpec P) :
    ((b.amid env).resolveSpec serial s).outline = (b.resolveSpec serial s).outline := by
  have critical := Environment.critical?_of_perm perm distinct s.name
  simp only [resolveSpec, amid]
  rcases prepare_of_critical? critical b.check with
    ⟨cause, prepared', prepared⟩ | ⟨d, settings, prepared, es, hes, prepared'⟩
  · rw [prepared, prepared']
  · have houtline : { d with endpoints := es.map (relabel (s.allLabels env)) }.outline =
        d.outline := by
      simp [Dependency.outline, hes, relabel_outline_of_perm perm]
    simp only [prepared, prepared']
    cases s.probe with
    | some probe => simp only [Resolution.outline, accept_of_outline houtline]
    | none =>
      simp only
      cases b.registry.create s.kind settings with
      | error cause => rfl
      | ok probe => simp only [Resolution.outline, accept_of_outline houtline]

/-- A label that the spec leaves open has the value of the first variable that gives it. -/
theorem label_of_resolved {serial : Nat} {r : Resolved P} {label value : String}
    (resolved : (b.resolveSpec serial s).result = .ok r) (hopen : s.labels.get? label = none)
    (hlabel : b.environment.label? s.name label = some value) :
    r.dependency.endpoints ≠ [] ∧
      ∀ e ∈ r.dependency.endpoints, e.labels.get? label = some value := by
  obtain ⟨⟨settings, prepared, -⟩, valid⟩ := resolveSpec_ok resolved
  obtain ⟨source, es, critical, -, -, -, -, hd⟩ := prepare_ok prepared
  refine ⟨((Dependency.validate_eq_ok_iff _).mp valid).endpoints, fun e he => ?_⟩
  rw [hd] at he
  obtain ⟨e₀, -, rfl⟩ := List.mem_map.mp he
  rw [get?_relabel, hopen, hlabel, Option.none_or, Option.some_or]

/-- **The order of the environment.** Where no variable is listed twice, a spec is refused for the
same cause in every order, or resolved into the same dependency but for the values of labels. It is
resolved alike in every order just if it is refused, or the variables that give it a label which it
leaves open agree on the value. -/
theorem order_free_iff (distinct : (b.environment.entries.map Prod.fst).Nodup) (serial : Nat)
    (s : DependencySpec P) :
    (∀ env : Environment, env.entries.Perm b.environment.entries →
      ((b.amid env).resolveSpec serial s).outline = (b.resolveSpec serial s).outline) ∧
    ((∀ env : Environment, env.entries.Perm b.environment.entries →
        (b.amid env).resolveSpec serial s = b.resolveSpec serial s) ↔
      ∀ r, (b.resolveSpec serial s).result = .ok r → s.Settled b.environment) := by
  refine ⟨fun env perm => outline_of_perm perm distinct serial s, fun alike r resolved => ?_,
    fun settled env perm => ?_⟩
  · intro label v w hopen hv hw
    -- either variable can be listed first, and the endpoints have its value then
    obtain ⟨env, perm, hlabel⟩ := Environment.exists_perm_label? hv
    obtain ⟨env', perm', hlabel'⟩ := Environment.exists_perm_label? hw
    have first : ((b.amid env).resolveSpec serial s).result = .ok r := by
      rw [alike env perm, resolved]
    have first' : ((b.amid env').resolveSpec serial s).result = .ok r := by
      rw [alike env' perm', resolved]
    obtain ⟨nonempty, hvalue⟩ := label_of_resolved first hopen hlabel
    obtain ⟨-, hvalue'⟩ := label_of_resolved first' hopen hlabel'
    obtain ⟨e, he⟩ := List.exists_mem_of_ne_nil _ nonempty
    exact Option.some.inj ((hvalue e he).symm.trans (hvalue' e he))
  · have houtline := outline_of_perm perm distinct serial s
    cases resolved : (b.resolveSpec serial s).result with
    | ok r =>
      exact resolveSpec_amid (Environment.critical?_of_perm perm distinct s.name)
        (allLabels_of_settled perm (settled r resolved)) serial
    | error cause => exact Resolution.eq_of_outline houtline resolved

/-! ### A zone and a tier -/

/-- Variables that give two labels to a database. -/
def zoneAndTier : List (String × String) :=
  [("DEPWATCH_DB_LABEL_ZONE", "east"), ("DEPWATCH_DB_LABEL_TIER", "gold")]

/-- They can be listed either way. -/
theorem zone_and_tier_alike : (zoneAndTier.map Prod.fst).Nodup ∧
    (surrounded zoneAndTier.reverse).resolveSpec 0 (bareSpec "db") =
      (surrounded zoneAndTier).resolveSpec 0 (bareSpec "db") := by
  have distinct : (zoneAndTier.map Prod.fst).Nodup := by decide
  have settled : (bareSpec "db").Settled ⟨zoneAndTier⟩ := by
    have hgives {label value : String} (h : (Environment.mk zoneAndTier).Gives "db" label value) :
        (label, value) ∈ [("zone", "east"), ("tier", "gold")] :=
      Environment.mem_labels_iff.mpr h
    intro label v w _ hv hw
    simp only [List.mem_cons, Prod.mk.injEq, List.not_mem_nil, or_false] at hgives
    rcases hgives hv with ⟨rfl, rfl⟩ | ⟨rfl, rfl⟩ <;> simpa [eq_comm] using hgives hw
  exact ⟨distinct, (order_free_iff (b := surrounded zoneAndTier) distinct 0 (bareSpec "db")).2.mpr
    (fun _ _ => settled) ⟨zoneAndTier.reverse⟩ (List.reverse_perm zoneAndTier)⟩

/-- Variables that give one label in two spellings. -/
def zoneTwice : List (String × String) :=
  [("DEPWATCH_DB_LABEL_ZONE", "east"), ("DEPWATCH_DB_LABEL_zone", "west")]

/-- The zone depends on which is listed first. -/
theorem zone_by_order : (zoneTwice.map Prod.fst).Nodup ∧ zoneTwice.reverse.Perm zoneTwice ∧
    (∃ r, ((surrounded zoneTwice).resolveSpec 0 (bareSpec "db")).result = .ok r ∧
      r.dependency.endpoints.map (fun e => e.labels.entries) = [[("zone", "east")]]) ∧
    ∃ r, ((surrounded zoneTwice.reverse).resolveSpec 0 (bareSpec "db")).result = .ok r ∧
      r.dependency.endpoints.map (fun e => e.labels.entries) = [[("zone", "west")]] :=
  ⟨by decide, List.reverse_perm zoneTwice, ⟨_, rfl, rfl⟩, ⟨_, rfl, rfl⟩⟩

end Blueprint

end HealthMonitor

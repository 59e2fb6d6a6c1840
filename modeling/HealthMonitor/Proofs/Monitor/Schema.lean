import HealthMonitor.Proofs.Monitor.Labels
import HealthMonitor.Proofs.Monitor.Precedence
import HealthMonitor.Proofs.Scheduler.Handover
import HealthMonitor.Proofs.Scheduler.Listing

/-!
# The label schema

Label values know nothing of label names. Those of an endpoint stand in the order of the names of
their exporter: first the six that every series has, then the custom labels that were in use when
the monitor was built. `Exporter.shown` says what an endpoint shows under a name, wherever that
stands. If every label of an endpoint is one of the exporter's, and no custom label is named like
one of the six, then the values are what the endpoint shows under each name in turn
(`Exporter.InPlace`), and they tell all about the endpoint but whether a label is missing or empty
(`Exporter.labelValues_eq_iff`).

`labels_in_place` has that this is so for every endpoint that a build has registered, as long as the
monitor lives: what happens to it later does not change which labels its exporter has.
-/

namespace HealthMonitor

namespace Exporter

variable {x : Exporter} {d d' : Dependency} {e e' : Endpoint}

/-! ### Names and places -/

/-- What an endpoint of a dependency shows under the name of a label. -/
def shown (x : Exporter) (d : Dependency) (e : Endpoint) (label : String) : String :=
  match label with
  | "name" => x.name
  | "dependency" => d.name
  | "type" => d.kind.text
  | "host" => e.host
  | "port" => toString e.port.toNat
  | "critical" => yesNo d.isCritical
  | custom => (e.labels.get? custom).getD ""

theorem shown_of_custom {label : String} (custom : label ∉ baseLabels) :
    x.shown d e label = (e.labels.get? label).getD "" := by
  unfold shown
  split
  case h_7 => rfl
  -- each of the other names is one of the six
  all_goals exact absurd (by decide) custom

/-- The custom labels of an exporter are in rising order, and none is named like a label that every
series has. -/
structure Orderly (x : Exporter) : Prop where
  rising : x.extraLabels.Pairwise (· < ·)
  custom : ∀ l ∈ x.extraLabels, l ∉ baseLabels

/-- No two label values of a series stand under one name. -/
theorem Orderly.nodup (h : x.Orderly) : x.labelNames.Nodup := by
  refine List.nodup_append.mpr ⟨by decide, ?_, ?_⟩
  · exact h.rising.imp Std.ne_of_lt
  · rintro base hbase _ hextra rfl
    exact h.custom base hextra hbase

/-- The label values of an endpoint stand where their names do: under each name is what the endpoint
shows under it, which for its own labels is their value, and nothing for other custom labels. -/
structure InPlace (x : Exporter) (d : Dependency) (e : Endpoint) : Prop where
  values : (x.labelValues d e).texts = x.labelNames.map (x.shown d e)
  carried : ∀ l v, e.labels.get? l = some v → l ∈ x.extraLabels ∧ x.shown d e l = v
  empty : ∀ l ∈ x.extraLabels, e.labels.get? l = none → x.shown d e l = ""

/-- An exporter has all labels of an endpoint. -/
def Covers (x : Exporter) (e : Endpoint) : Prop :=
  ∀ l, (e.labels.get? l).isSome = true → l ∈ x.extraLabels

theorem Covers.get?_of_notMem (covers : x.Covers e) {l : String} (h : l ∉ x.extraLabels) :
    e.labels.get? l = none := by
  rw [← Option.not_isSome_iff_eq_none]
  exact fun hsome => h (covers l hsome)

theorem Orderly.inPlace (h : x.Orderly) (covers : x.Covers e) (d : Dependency) : x.InPlace d e where
  values := by
    have hextra : x.extraLabels.map (x.shown d e) =
        x.extraLabels.map fun l => (e.labels.get? l).getD "" :=
      List.map_congr_left fun l hl => shown_of_custom (h.custom l hl)
    rw [labelNames, List.map_append, hextra]
    rfl
  carried l v hv := by
    have hl : l ∈ x.extraLabels := covers l (by rw [hv, Option.isSome_some])
    refine ⟨hl, ?_⟩
    rw [shown_of_custom (h.custom l hl), hv, Option.getD_some]
  empty l hl hnone := by
    rw [shown_of_custom (h.custom l hl), hnone, Option.getD_none]

/-! ### What label values tell -/

/-- Two endpoints are the same target of the same dependency, with the same labels: one that is
missing counts as empty. -/
structure Alike (d : Dependency) (e : Endpoint) (d' : Dependency) (e' : Endpoint) : Prop where
  name : d.name = d'.name
  kind : d.kind = d'.kind
  critical : d.isCritical = d'.isCritical
  host : e.host = e'.host
  port : e.port = e'.port
  labels : ∀ l, (e.labels.get? l).getD "" = (e'.labels.get? l).getD ""

/-- **Endpoints whose labels an exporter has are told apart by their label values.** -/
theorem labelValues_eq_iff (covers : x.Covers e) (covers' : x.Covers e') :
    x.labelValues d e = x.labelValues d' e' ↔ Alike d e d' e' := by
  constructor
  · intro h
    have htexts := congrArg LabelValues.texts h
    simp only [labelValues, List.cons_append, List.cons.injEq, List.nil_append] at htexts
    obtain ⟨-, hname, hkind, hhost, hport, hcritical, hlabels⟩ := htexts
    refine ⟨hname, Kind.text_injective hkind, yesNo_injective hcritical, hhost,
      Endpoint.port_injective hport, fun l => ?_⟩
    by_cases hl : l ∈ x.extraLabels
    · exact List.map_inj_left.mp hlabels l hl
    · -- a label outside those of the exporter is missing on both sides
      rw [covers.get?_of_notMem hl, covers'.get?_of_notMem hl]
  · intro h
    simp only [labelValues, h.name, h.kind, h.critical, h.host, h.port, h.labels]

end Exporter

/-! ### The labels of a blueprint -/

/-- Some endpoint of a spec has a label: the spec sets it, a variable gives it, or the source lists
the endpoint with it. -/
def DependencySpec.HasLabel {P : Type} (s : DependencySpec P) (env : Environment) (label : String) :
    Prop :=
  ∃ source es, s.source = some source ∧ source.endpoints s.kind = .ok es ∧ ∃ e ∈ es,
    (s.labels.get? label).isSome = true ∨ (∃ value, env.Gives s.name label value) ∨
      (e.labels.get? label).isSome = true

namespace Blueprint

open Exporter

variable {P : Type} {b : Blueprint P}

theorem mem_labelNames_iff {rs : List (Resolved P)} {label : String} :
    label ∈ labelNames rs ↔
      ∃ r ∈ rs, ∃ e ∈ r.dependency.endpoints, (e.labels.get? label).isSome = true := by
  simp only [labelNames, mem_sortedLabels, List.mem_flatMap, Dictionary.mem_keys_iff]

theorem Resolves.hasLabel_iff {s : DependencySpec P} {r : Resolved P} (h : b.Resolves s r)
    {label : String} : s.HasLabel b.environment label ↔
      ∃ e ∈ r.dependency.endpoints, (e.labels.get? label).isSome = true := by
  obtain ⟨settings, prepared, -⟩ := h.prepared
  obtain ⟨source, es, critical, hsource, hes, -, -, hd⟩ := DependencySpec.prepare_ok prepared
  simp only [hd, List.mem_map, exists_exists_and_eq_and, DependencySpec.get?_relabel,
    Option.isSome_or, Bool.or_eq_true, Environment.isSome_label?_iff]
  constructor
  · rintro ⟨source', es', hsource', hes', e, he, hlabel⟩
    obtain rfl := Option.some.inj (hsource.symm.trans hsource')
    obtain rfl := Except.ok.inj (hes.symm.trans hes')
    exact ⟨e, he, hlabel⟩
  · rintro ⟨e, he, hlabel⟩
    exact ⟨source, es, hsource, hes, e, he, hlabel⟩

/-- The labels of resolved endpoints are those of the specs. -/
theorem exists_hasLabel_iff {specs : List (DependencySpec P)} {rs : List (Resolved P)}
    (resolved : List.Forall₂ b.Resolves specs rs) {label : String} :
    (∃ s ∈ specs, s.HasLabel b.environment label) ↔
      ∃ r ∈ rs, ∃ e ∈ r.dependency.endpoints, (e.labels.get? label).isSome = true := by
  induction resolved with
  | nil => simp
  | cons hs _ ih => simp [hs.hasLabel_iff, ih]

/-! ### What a build registers -/

/-- What a build leaves for the start: an exporter for the labels of the resolved endpoints, and all
resolved dependencies. -/
theorem build_registered {m : Monitor P} (built : b.build.result = .ok m) :
    ∃ name rs, b.instanceName = .ok name ∧ b.resolve.1 = .ok rs ∧
      m.scheduler.metrics = fresh name (sortedLabels (labelNames rs)) ∧
      m.scheduler.pending = rs.map fun r => ⟨r.dependency, r.handle⟩ := by
  obtain ⟨name, rs, x, named, resolved, made, assembled⟩ := build_stages built
  obtain ⟨-, -, -, rfl⟩ := prepare_eq_ok_iff.mp (prepare_of_create made)
  have valid : ∀ p ∈ rs.map fun r => (r.dependency, r.handle), p.1.validate = .ok () := by
    intro p hp
    obtain ⟨r, hr, rfl⟩ := List.mem_map.mp hp
    exact validate_of_resolved resolved hr
  have hrun := Scheduler.run_registers (fresh name (sortedLabels (labelNames rs))) b.addedPlan valid
  rw [List.map_map, List.map_map] at hrun
  refine ⟨name, rs, named, resolved, ?_, ?_⟩
  · rw [assemble_ok assembled]
    exact congrArg Scheduler.metrics hrun
  · rw [assemble_ok assembled]
    exact congrArg Scheduler.pending hrun

/-- The exporter of a blueprint is in order: its labels have passed the validation, which keeps the
names of the six for the exporter. -/
theorem orderly_of_resolved {rs : List (Resolved P)} (resolved : b.resolve.1 = .ok rs)
    {x : Exporter} (hx : x.extraLabels = sortedLabels (labelNames rs)) : x.Orderly where
  rising := hx ▸ Dictionary.pairwise_keys _
  custom l hl hbase := by
    rw [hx, mem_sortedLabels, mem_labelNames_iff] at hl
    obtain ⟨r, hr, e, he, hlabel⟩ := hl
    have valid := (Dependency.validate_eq_ok_iff _).mp (validate_of_resolved resolved hr)
    have hnamed : IsLabelName l := valid.labels e he l (Dictionary.mem_keys_iff.mpr hlabel)
    have hreserved : ∀ l ∈ baseLabels, l ∈ reservedLabels := by decide
    exact hnamed.unreserved (hreserved l hbase)

end Blueprint

/-! ### Later moves -/

/-- No move changes the names of an exporter. -/
theorem Scheduler.names_move {P : Type} (s : Scheduler P) (w : Move P) :
    (s.move w).metrics.name = s.metrics.name ∧
      (s.move w).metrics.extraLabels = s.metrics.extraLabels := by
  rw [metrics_move]
  cases s.touch? w with
  | none => exact ⟨rfl, rfl⟩
  | some t => exact s.metrics.apply_names t.labels t.change

section Monitor

open Exporter

variable {P : Type} [HasKind P]

theorem Monitor.names_run (m : Monitor P) (ms : List (MonitorMove P)) :
    (m.run ms).scheduler.metrics.name = m.scheduler.metrics.name ∧
      (m.run ms).scheduler.metrics.extraLabels = m.scheduler.metrics.extraLabels := by
  refine run_scheduler (motive := fun s => s.metrics.name = m.scheduler.metrics.name ∧
    s.metrics.extraLabels = m.scheduler.metrics.extraLabels) ⟨rfl, rfl⟩ (fun s w h => ?_) ms
  obtain ⟨hname, hlabels⟩ := s.names_move w
  exact ⟨hname.trans h.1, hlabels.trans h.2⟩

/-- **No label of a registered endpoint is lost or misplaced.** A monitor that has been built has
registered all resolved dependencies. Whatever happens to it, its exporter has the name of the
instance, and as custom labels just those that a resolved endpoint has, be it from the spec, from a
variable or of its own. They are in rising order, and no two labels have one name. The label values
of every registered endpoint stand where their names do, and of two registered endpoints they are
equal just if the endpoints are alike. -/
theorem labels_in_place {b : Blueprint P} {m : Monitor P} (built : b.build.result = .ok m)
    (ms : List (MonitorMove P)) :
    let x := (m.run ms).scheduler.metrics
    ∃ rs, b.resolve.1 = .ok rs ∧
      m.scheduler.pending = rs.map (fun r => ⟨r.dependency, r.handle⟩) ∧
      b.instanceName = .ok x.name ∧
      x.extraLabels.Pairwise (· < ·) ∧ x.labelNames.Nodup ∧
      (∀ l, l ∈ x.extraLabels ↔
        ∃ r ∈ rs, ∃ e ∈ r.dependency.endpoints, (e.labels.get? l).isSome = true) ∧
      (∀ l, l ∈ x.extraLabels ↔ ∃ s ∈ b.specs, s.HasLabel b.environment l) ∧
      ∀ r ∈ rs, ∀ e ∈ r.dependency.endpoints, x.InPlace r.dependency e ∧
        ∀ r' ∈ rs, ∀ e' ∈ r'.dependency.endpoints,
          (x.labelValues r.dependency e = x.labelValues r'.dependency e' ↔
            Alike r.dependency e r'.dependency e') := by
  intro x
  obtain ⟨name, rs, named, resolved, hmetrics, hpending⟩ := Blueprint.build_registered built
  obtain ⟨hname, hlabels⟩ := m.names_run ms
  rw [hmetrics] at hname hlabels
  have hx : x.extraLabels = sortedLabels (Blueprint.labelNames rs) := hlabels
  have orderly : x.Orderly := Blueprint.orderly_of_resolved resolved hx
  have hmem (l : String) : l ∈ x.extraLabels ↔
      ∃ r ∈ rs, ∃ e ∈ r.dependency.endpoints, (e.labels.get? l).isSome = true := by
    rw [hx, mem_sortedLabels, Blueprint.mem_labelNames_iff]
  have covers {r : Resolved P} (hr : r ∈ rs) {e : Endpoint} (he : e ∈ r.dependency.endpoints) :
      x.Covers e := fun l hlabel => (hmem l).mpr ⟨r, hr, e, he, hlabel⟩
  refine ⟨rs, resolved, hpending, hname ▸ named, orderly.rising, orderly.nodup, hmem, ?_, ?_⟩
  · intro l
    rw [hmem, Blueprint.exists_hasLabel_iff (Blueprint.resolveFrom_ok resolved)]
  · intro r hr e he
    refine ⟨orderly.inPlace (covers hr he) r.dependency, fun r' hr' e' he' => ?_⟩
    exact labelValues_eq_iff (covers hr he) (covers hr' he')

end Monitor

/-! ### A database in two zones -/

/-- A cache in a tier, and a database with an endpoint in either zone. A variable says whose the
cache is. -/
def twoZones : Blueprint BuiltIn :=
  { Monitor.cacheApp with
    environment := ⟨[("DEPWATCH_CACHE_LABEL_TEAM", "core")]⟩
    specs := [{ Monitor.cacheSpec with labels := Dictionary.ofList [("tier", "gold")] },
      { Monitor.cacheSpec with
        name := "db"
        source := some (.listed
          [⟨"b", 1, Dictionary.ofList [("zone", "east")]⟩,
            ⟨"b", 1, Dictionary.ofList [("zone", "west")]⟩]) }] }

/-- The labels of both dependencies are in one schema, each with its values in place, and the zone
alone tells the endpoints of the database apart. -/
theorem zones_in_place : ∃ m, twoZones.build.result = .ok m ∧
    let x := m.scheduler.metrics
    x.extraLabels = ["team", "tier", "zone"] ∧
    (∀ r ∈ m.scheduler.pending, ∀ e ∈ r.dependency.endpoints, x.InPlace r.dependency e) ∧
    (m.scheduler.pending.map fun r =>
        r.dependency.endpoints.map fun e => (x.labelValues r.dependency e).texts) =
      [[["app", "cache", "tcp", "a", "1", "yes", "core", "gold", ""]],
        [["app", "db", "tcp", "b", "1", "yes", "", "", "east"],
          ["app", "db", "tcp", "b", "1", "yes", "", "", "west"]]] := by
  refine ⟨_, rfl, rfl, ?_, by decide +kernel⟩
  obtain ⟨rs, -, hpending, -, -, -, -, -, each⟩ := labels_in_place (b := twoZones) rfl []
  intro r hr e he
  replace hr : r ∈ rs.map fun r => ⟨r.dependency, r.handle⟩ := hpending ▸ hr
  obtain ⟨q, hq, rfl⟩ := List.mem_map.mp hr
  exact (each q hq e he).1

end HealthMonitor

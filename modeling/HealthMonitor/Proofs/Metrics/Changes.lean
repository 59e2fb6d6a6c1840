import HealthMonitor.Metrics.Exporter

/-!
# Changes of an exporter

Whatever is done to an exporter while checks run is done at the label values of one endpoint: a
place is written to, or a place is cleared. `Exporter.Change` names these and `Exporter.apply`
carries one out; the writing operations are its cases (`setHealth_eq` and its companions). A change
leaves the name and the custom labels of the exporter alone, so label values never change their
meaning.

Of a family it is enough to know what its look-ups find: `Family.series?_set` and
`Family.series?_remove` give the series under every key, `Family.mem_labels_iff` reads off for which
label values there is a series, and `mem_labels_set`, `mem_labels_remove` say how that changes.
-/

namespace HealthMonitor

namespace Family

variable {α : Type}

/-! ### Series under keys -/

theorem series?_empty (w : LabelValues) : (empty : Family α).series? w = none := rfl

/-- A series is set under its key. Whatever label values have this key find the series, and it keeps
those that it was made for. -/
theorem series?_set (f : Family α) (v : LabelValues) (value : α) (w : LabelValues) :
    (f.set v value).series? w =
      if w.key = v.key then some ⟨f.labelsFor v, value⟩ else f.series? w := by
  simp [series?, set]

/-- A series is removed under its key, and with it what other label values of this key have found.
-/
theorem series?_remove (f : Family α) (v w : LabelValues) :
    (f.remove v).series? w = if w.key = v.key then none else f.series? w := by
  simp [series?, remove]

/-- The label values that a family has series for. -/
def labels (f : Family α) : List LabelValues :=
  f.toList.map Series.labels

@[simp] theorem labels_empty : (empty : Family α).labels = [] := rfl

/-- A family has a series for label values when they lead to one that was made for them. -/
theorem mem_labels_iff {f : Family α} {w : LabelValues} :
    w ∈ f.labels ↔ ∃ s, f.series? w = some s ∧ s.labels = w := by
  simp only [labels, toList, List.map_map, List.mem_map, Function.comp]
  constructor
  · rintro ⟨⟨key, s⟩, he, rfl⟩
    have hkey : s.labels.key = key := f.keyed _ he
    exact ⟨s, Dictionary.mem_entries_iff.mp (hkey ▸ he), rfl⟩
  · rintro ⟨s, hs, rfl⟩
    exact ⟨(s.labels.key, s), Dictionary.mem_entries_iff.mpr hs, rfl⟩

/-- A family has no label values but those that a series was set at. -/
theorem mem_labels_set {f : Family α} {v w : LabelValues} {value : α}
    (h : w ∈ (f.set v value).labels) : w = v ∨ w ∈ f.labels := by
  obtain ⟨s, hs, rfl⟩ := mem_labels_iff.mp h
  rw [series?_set] at hs
  split at hs
  next hkey =>
    cases hs
    unfold labelsFor at hkey ⊢
    cases hv : f.series? v with
    | none => exact Or.inl rfl
    | some s =>
      rw [hv] at hkey
      refine Or.inr (mem_labels_iff.mpr ⟨s, ?_, rfl⟩)
      rwa [series?, Option.map_some, Option.getD_some, show s.labels.key = v.key from hkey]
  next => exact Or.inr (mem_labels_iff.mpr ⟨s, hs, rfl⟩)

/-- No label values of the key of a removed series are left. -/
theorem mem_labels_remove {f : Family α} {v w : LabelValues} (h : w ∈ (f.remove v).labels) :
    w.key ≠ v.key ∧ w ∈ f.labels := by
  obtain ⟨s, hs, rfl⟩ := mem_labels_iff.mp h
  rw [series?_remove] at hs
  split at hs
  next => cases hs
  next hkey => exact ⟨hkey, mem_labels_iff.mpr ⟨s, hs, rfl⟩⟩

end Family

namespace LabelValues

/-- Label values with one more value at their ends are equal in both parts. -/
theorem extended_inj {v w : LabelValues} {t u : String} (h : v.extended t = w.extended u) :
    v = w ∧ t = u := by
  have htexts : v.texts ++ [t] = w.texts ++ [u] := congrArg texts h
  obtain ⟨hinit, hlast⟩ := List.append_inj' htexts rfl
  exact ⟨eq_of_texts hinit, List.singleton_inj.mp hlast⟩

end LabelValues

namespace Exporter

/-- One thing that is done at the label values of an endpoint. -/
inductive Change where
  | latency (span : Span)
  | status (category : Category)
  | detail (text : String)
  | health (healthy : Bool)
  | cleared (place : Removal)
  deriving DecidableEq, Repr

/-- Carries out a change. -/
def apply (x : Exporter) (v : LabelValues) : Change → Exporter
  | .latency span =>
    let h := (x.latency.get? v).getD Histogram.empty
    { x with latency := x.latency.set v (h.observe span) }
  | .status category =>
    { x with
      status := Category.all.foldl
        (fun s c => s.set (v.extended c.text) (decide (c = category))) x.status }
  | .detail text =>
    let cleared := match x.details.get? v with
      | some before => if before = text then x.detail else x.detail.remove (v.extended before)
      | none => x.detail
    { x with
      detail := cleared.set (v.extended text) true
      details := x.details.insert v text }
  | .health healthy => { x with health := x.health.set v healthy }
  | .cleared place => x.clear v place

/-! ### The operations of an exporter are changes -/

/-- A latency is added by a change, unless a custom label takes the place of the buckets; then it
breaks down. -/
theorem observeLatency?_eq (x : Exporter) (d : Dependency) (e : Endpoint) (span : Span) :
    x.observeLatency? d e span =
      if x.latencyUsable then some (x.apply (x.labelValues d e) (.latency span)) else none := rfl

theorem setStatus_eq (x : Exporter) (d : Dependency) (e : Endpoint) (category : Category) :
    x.setStatus d e category = x.apply (x.labelValues d e) (.status category) := rfl

theorem setDetail_eq (x : Exporter) (d : Dependency) (e : Endpoint) (text : String) :
    x.setDetail d e text = x.apply (x.labelValues d e) (.detail text) := rfl

theorem setHealth_eq (x : Exporter) (d : Dependency) (e : Endpoint) (healthy : Bool) :
    x.setHealth d e healthy = x.apply (x.labelValues d e) (.health healthy) := rfl

/-- A change leaves the name and the custom labels alone. -/
theorem apply_names (x : Exporter) (v : LabelValues) (c : Change) :
    (x.apply v c).name = x.name ∧ (x.apply v c).extraLabels = x.extraLabels := by
  cases c with
  | cleared place => cases place <;> exact ⟨rfl, rfl⟩
  | latency | status | detail | health => exact ⟨rfl, rfl⟩

/-- A change leaves the instance and its custom labels alone, so label values stay what they are. -/
theorem apply_labelValues (x : Exporter) (v : LabelValues) (c : Change) :
    (x.apply v c).labelValues = x.labelValues := by
  obtain ⟨hname, hlabels⟩ := x.apply_names v c
  funext d e
  simp only [labelValues, hname, hlabels]

/-- No change makes latencies usable or takes that away. -/
theorem apply_latencyUsable (x : Exporter) (v : LabelValues) (c : Change) :
    (x.apply v c).latencyUsable = x.latencyUsable := by
  rw [latencyUsable, (x.apply_names v c).2, latencyUsable]

end Exporter

/-- A change at the label values of the endpoint of a loop. -/
structure Touch where
  loop : Nat
  labels : LabelValues
  change : Exporter.Change
  deriving DecidableEq, Repr

/-- What some touches, in order, make of an exporter. -/
def Exporter.replay (x : Exporter) (touches : List Touch) : Exporter :=
  touches.foldl (fun x t => x.apply t.labels t.change) x

/-- Touches are carried out in their order, in as many parts as one likes. -/
theorem Exporter.replay_append (x : Exporter) (ts us : List Touch) :
    x.replay (ts ++ us) = (x.replay ts).replay us :=
  List.foldl_append

end HealthMonitor

import HealthMonitor.Proofs.Lookup
import HealthMonitor.Proofs.Metrics.Requests
import HealthMonitor.Proofs.Monitor.FamilyRegistry
import HealthMonitor.Proofs.Monitor.ProbeKinds
import HealthMonitor.Proofs.Scheduler.Touches

/-!
# Custom labels at work

The names that a custom label must not have are those that every series has, and one more. The
families use three others: `status` and `detail` tell the series of two of them apart, and `le` the
buckets of a histogram. A custom label with one of the first two keeps the exporter from being made.
One with the third goes unnoticed until the first latency is added, which is when a check loop
publishes its first result.

`accepted_labels_work` says exactly when accepted labels work: the exporter can be made, requests
are carried out, and loops end only when they are to. `accepted_labels_break` has the failures, the
last in a monitor that has been built.
-/

namespace HealthMonitor

open Checks

namespace Exporter

/-! ### Making an exporter -/

theorem mem_sortedLabels {label : String} {labels : List String} :
    label ∈ sortedLabels labels ↔ label ∈ labels := by
  rw [sortedLabels, Dictionary.mem_keys_iff, Dictionary.get?_ofList, Option.isSome_map,
    List.getLast?_isSome, Ne, List.filter_eq_nil_iff]
  simp

/-- An exporter is made of accepted labels that do not tell its series apart. -/
theorem prepare_eq_ok_iff {name : String} {labels : List String} {x : Exporter} :
    prepare name labels = .ok x ↔ (∀ l ∈ labels, Dependency.checkLabelName l = .ok ()) ∧
      statusLabel ∉ labels ∧ detailLabel ∉ labels ∧ x = fresh name (sortedLabels labels) := by
  simp only [prepare, andThen_eq_ok_iff, mapError_eq_ok_iff, forM_eq_ok_iff, guard_eq_ok_iff,
    List.contains_iff_mem, mem_sortedLabels]
  constructor
  · rintro ⟨accepted, status, detail, hx⟩
    exact ⟨accepted, status, detail, (Except.ok.inj hx).symm⟩
  · rintro ⟨accepted, status, detail, rfl⟩
    exact ⟨accepted, status, detail, rfl⟩

/-- Whatever registry an exporter is made with, it has been prepared. -/
theorem prepare_of_create {name : String} {labels : List String} {r : FamilyRegistry}
    {x : Exporter} (made : (create name labels r).1 = .ok x) : prepare name labels = .ok x := by
  cases prepared : prepare name labels with
  | error e =>
    rw [create_of_unprepared prepared] at made
    cases made
  | ok y =>
    rw [create_of_prepared prepared] at made
    dsimp only at made
    split at made
    next => exact made
    next => cases made

theorem alone_eq_ok_iff {name : String} {labels : List String} {x : Exporter} :
    alone name labels = .ok x ↔ (∀ l ∈ labels, Dependency.checkLabelName l = .ok ()) ∧
      statusLabel ∉ labels ∧ detailLabel ∉ labels ∧ x = fresh name (sortedLabels labels) := by
  rw [← prepare_eq_ok_iff, alone]
  refine ⟨prepare_of_create, fun prepared => ?_⟩
  rw [create_of_prepared prepared]
  rfl

/-! ### Requests -/

theorem perform?_eq_none_iff {x : Exporter} {r : Request} :
    x.perform? r = none ↔ x.latencyUsable = false ∧ ∃ span, r.operation = .observeLatency span := by
  obtain ⟨d, e, operation⟩ := r
  cases operation with
  | observeLatency span =>
    change x.observeLatency? d e span = none ↔ _
    rw [observeLatency?_eq]
    cases x.latencyUsable with
    | false => exact ⟨fun _ => ⟨rfl, span, rfl⟩, fun _ => rfl⟩
    | true => exact ⟨nofun, fun h => absurd h.1 (by decide)⟩
  | setHealth | setStatus | setDetail | delete =>
    constructor
    · intro h
      cases h
    · rintro ⟨-, span, h⟩
      cases h

/-- Of some requests one is refused if it adds a latency that the family cannot take. -/
theorem performAll?_eq_none_iff {x : Exporter} {rs : List Request} :
    x.performAll? rs = none ↔
      x.latencyUsable = false ∧ ∃ r ∈ rs, ∃ span, r.operation = .observeLatency span := by
  induction rs generalizing x with
  | nil =>
    constructor
    · intro h
      cases h
    · rintro ⟨-, r, hr, -⟩
      cases hr
  | cons r rs ih =>
    rw [performAll?, List.foldlM_cons]
    cases hr : x.perform? r with
    | none =>
      obtain ⟨unusable, hspan⟩ := perform?_eq_none_iff.mp hr
      exact ⟨fun _ => ⟨unusable, r, List.mem_cons_self, hspan⟩, fun _ => rfl⟩
    | some y =>
      have hy : y = x.perform r := by rw [perform, hr, Option.getD_some]
      have husable : y.latencyUsable = x.latencyUsable := by
        have hnames := (x.performAll_names [r]).2
        rw [hy, latencyUsable, latencyUsable]
        exact congrArg (fun labels => !labels.contains bucketLabel) hnames
      change y.performAll? rs = none ↔ _
      rw [ih, husable]
      constructor
      · rintro ⟨unusable, s, hs, hspan⟩
        exact ⟨unusable, s, List.mem_cons_of_mem r hs, hspan⟩
      · rintro ⟨unusable, s, hs, hspan⟩
        rcases List.mem_cons.mp hs with rfl | hs
        · rw [perform?_eq_none_iff.mpr ⟨unusable, hspan⟩] at hr
          cases hr
        · exact ⟨unusable, s, hs, hspan⟩

end Exporter

section Monitor

variable {P : Type} [HasKind P]

theorem Monitor.latencyUsable_run (m : Monitor P) (ms : List (MonitorMove P)) :
    (m.run ms).scheduler.metrics.latencyUsable = m.scheduler.metrics.latencyUsable :=
  run_scheduler (motive := fun s => s.metrics.latencyUsable = m.scheduler.metrics.latencyUsable)
    rfl (fun s w h => (s.latencyUsable_move w).trans h) ms

theorem Monitor.unwritten_run {b : Blueprint P} {m : Monitor P} (built : b.build.result = .ok m)
    (ms : List (MonitorMove P)) : (m.run ms).scheduler.Unwritten := by
  refine run_scheduler ?_ (fun s w h => h.move w) ms
  obtain ⟨name, x, rs, -, rfl⟩ := Blueprint.build_ok built
  exact Scheduler.unwritten_run x b.addedPlan (Blueprint.registrations rs)

/-- **Accepted labels and what they do.** An exporter on its own can be made of accepted labels just
if none of them is `status` or `detail`. Requests to it are carried out unless one adds a latency
and a label is `le`. In a monitor that has been built, a step of a loop ends it just if the loop is
not publishing and is to end, or is publishing and a label is `le`. -/
theorem accepted_labels_work {name : String} {labels : List String}
    (accepted : ∀ l ∈ labels, Dependency.checkLabelName l = .ok ()) :
    ((∃ x, Exporter.alone name labels = .ok x) ↔
      Exporter.statusLabel ∉ labels ∧ Exporter.detailLabel ∉ labels) ∧
    (∀ x rs, Exporter.alone name labels = .ok x →
      (x.performAll? rs = none ↔ Exporter.bucketLabel ∈ labels ∧
        ∃ r ∈ rs, ∃ span, r.operation = .observeLatency span)) ∧
    ∀ (b : Blueprint P) (m : Monitor P) (ms : List (MonitorMove P)) (i : Nat)
      (l : CheckLoop (Handle P)) (q : CheckLoop.Progress (Handle P)), b.build.result = .ok m →
      (m.run ms).scheduler.loops[i]? = some l →
      l.step (m.run ms).scheduler.metrics (m.run ms).scheduler.now = some q →
      (q.loop.isDone = true ↔
        if l.isPublishing = true then Exporter.bucketLabel ∈ m.scheduler.metrics.extraLabels
        else l.isCancelled (m.run ms).scheduler.now = true) := by
  refine ⟨?_, ?_, ?_⟩
  · constructor
    · rintro ⟨x, hx⟩
      obtain ⟨-, status, detail, -⟩ := Exporter.alone_eq_ok_iff.mp hx
      exact ⟨status, detail⟩
    · rintro ⟨status, detail⟩
      exact ⟨_, Exporter.alone_eq_ok_iff.mpr ⟨accepted, status, detail, rfl⟩⟩
  · intro x rs hx
    obtain ⟨-, -, -, rfl⟩ := Exporter.alone_eq_ok_iff.mp hx
    have husable : (Exporter.fresh name (Exporter.sortedLabels labels)).latencyUsable = false ↔
        Exporter.bucketLabel ∈ labels := by
      rw [Exporter.latencyUsable, Bool.not_eq_false', List.contains_iff_mem]
      exact Exporter.mem_sortedLabels
    rw [Exporter.performAll?_eq_none_iff, husable]
  · intro b m ms i l q built hl hq
    have husable : (m.run ms).scheduler.metrics.latencyUsable = false ↔
        Exporter.bucketLabel ∈ m.scheduler.metrics.extraLabels := by
      rw [Monitor.latencyUsable_run, Exporter.latencyUsable, Bool.not_eq_false',
        List.contains_iff_mem]
    have hstepped := CheckLoop.stepped_of_step hq
    rw [hstepped.isDone_iff fun unusable => Monitor.unwritten_run built ms unusable i l hl, husable]

end Monitor

/-! ### A region, and the three names -/

/-- Endpoints with a region can be told apart, and every request about them is carried out. -/
theorem region_works :
    Dependency.checkLabelName "region" = .ok () ∧
      ∃ x, Exporter.alone "app" ["region"] = .ok x ∧ ∀ rs, x.performAll? rs ≠ none := by
  have accepted : ∀ l ∈ ["region"], Dependency.checkLabelName l = .ok () := by decide
  obtain ⟨hmade, hperformed, -⟩ :=
    @accepted_labels_work BuiltIn _ "app" ["region"] accepted
  obtain ⟨x, hx⟩ := hmade.mpr (by decide)
  refine ⟨by decide, x, hx, ?_⟩
  intro rs hrefused
  exact absurd ((hperformed x rs hx).mp hrefused).1 (by decide)

/-- The cache with a custom label `le`. -/
def shelvedCache : Blueprint BuiltIn :=
  { Monitor.cacheApp with
    specs := [{ Monitor.cacheSpec with labels := Dictionary.ofList [("le", "10")] }] }

/-- The three names are accepted. No exporter can be made with `status` or `detail`; one with `le`
cannot add a latency. A monitor with a label `le` is built, and its loop breaks down while it
publishes its first result, though nobody has told it to stop. -/
theorem accepted_labels_break :
    (∀ l ∈ ["status", "detail", "le"], Dependency.checkLabelName l = .ok ()) ∧
      Exporter.alone "app" ["status"] = .error (.repeatedLabel "status") ∧
      Exporter.alone "app" ["detail"] = .error (.repeatedLabel "detail") ∧
      (∃ x, Exporter.alone "app" ["le"] = .ok x ∧
        x.performAll? [Exporter.onPrimary (.observeLatency (Span.ofMillis 3))] = none) ∧
      ∃ m, shelvedCache.build.result = .ok m ∧
        let s := (m.run [.start none, .work (.loop 0) rfl,
          .work (.ending 0 (.returned (.ok ()))) rfl, .work (.loop 0) rfl,
          .work (.loop 0) rfl]).scheduler
        s.isBroken 0 = true ∧ s.loops[0]?.map (fun l => l.isCancelled s.now) = some false ∧
          s.details.map (fun e => (e.1, e.2.healthy)) = [("cache:a:1", none)] := by
  refine ⟨by decide, rfl, rfl, ⟨_, rfl, rfl⟩, _, rfl, ?_⟩
  decide +kernel

end HealthMonitor

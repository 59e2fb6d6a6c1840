import HealthMonitor.Proofs.Metrics.Marks
import HealthMonitor.Proofs.Scheduler.Attempts

/-!
# Endpoints that come and go at once

Calls that change what is served may overlap, and a call clears series only after it has waited for
a loop. Meanwhile another call may have put an endpoint at the same label values into service, and
then the series of this endpoint go. A loop that an update takes out of service, likewise, may still
publish after the loop in its place.

So a loop in service has published its health and its detail, but whether the series are there
depends on what is done at their keys later. `shown_iff_stands` has the exact condition, for every
interleaving. It also has what is enough: that nothing is done at the label values of an endpoint in
service but by its own loop (`Undisturbed`). `removal_hides_addition` is a run in which a removal
and an addition of one endpoint overlap.
-/

namespace HealthMonitor

/-- An exporter has the series of a health and of a detail at some label values. -/
structure Exporter.Has (x : Exporter) (v : LabelValues) (healthy : Bool) (detail : String) :
    Prop where
  health : x.health.own? v = some healthy
  detail : x.detail.own? (v.extended detail) = some true

/-- Whoever has been checked has a health and a detail to publish. -/
theorem EndpointState.Reflects.published {s : EndpointState} {plan : CheckPlan}
    {outcomes : List Outcome} (h : s.Reflects plan outcomes) {healthy : Bool}
    (checked : s.tracker.healthy = some healthy) :
    (Published.ofOutcomes plan outcomes).health = some healthy ∧
      (Published.ofOutcomes plan outcomes).detail = some s.verdict.detail := by
  refine ⟨by rw [← checked, h.tracker]; rfl, ?_⟩
  cases hlast : outcomes.getLast? with
  | none =>
    rw [List.getLast?_eq_none_iff.mp hlast] at h
    rw [h.tracker] at checked
    cases checked
  | some o => simp [Published.ofOutcomes, h.verdict, Verdict.last, hlast]

/-- A loop at rest has published its health and its detail. -/
theorem CheckLoop.Follows.told {P : Type} {l : CheckLoop P} {usable : Bool}
    {outcomes : List Outcome} {pub : Published} (h : l.Follows usable outcomes pub)
    (quiet : l.isPublishing = false) {healthy : Bool}
    (checked : l.state.tracker.healthy = some healthy) :
    pub.health = some healthy ∧ pub.detail = some l.state.verdict.detail := by
  cases h with
  | resting _ state => exact state.published checked
  | publishing phase => simp [isPublishing, phase] at quiet
  | broken _ _ state => exact state.published checked

namespace Scheduler

variable {P : Type}

/-! ### What a run does to the families -/

/-- What the moves of a past have done to the family of health. -/
def healthMarks (past : List (Scheduler P × Move P)) : List (Mark Bool) :=
  (touches past).flatMap Touch.healthMarks

/-- What the moves of a past have done to the family of details. -/
def detailMarks (past : List (Scheduler P × Move P)) : List (Mark Bool) :=
  past.flatMap fun p => (p.1.touch? p.2).toList.flatMap p.1.metrics.detailMarks

theorem healthMarks_concat (past : List (Scheduler P × Move P)) (s : Scheduler P) (m : Move P) :
    healthMarks (past ++ [(s, m)]) =
      healthMarks past ++ (s.touch? m).toList.flatMap Touch.healthMarks := by
  rw [healthMarks, touches_concat, List.flatMap_append, ← healthMarks]

theorem detailMarks_concat (past : List (Scheduler P × Move P)) (s : Scheduler P) (m : Move P) :
    detailMarks (past ++ [(s, m)]) =
      detailMarks past ++ (s.touch? m).toList.flatMap s.metrics.detailMarks := by
  rw [detailMarks, List.flatMap_append, List.flatMap_singleton, ← detailMarks]

/-- The families after a run are what its marks leave. -/
theorem families_run (name : String) (labels : List String) (defaults : CheckPlan)
    (ms : List (Move P)) :
    ((fresh (Exporter.fresh name labels) defaults).run ms).metrics.health =
        .ofMarks (healthMarks ((fresh (Exporter.fresh name labels) defaults).trace ms)) ∧
      ((fresh (Exporter.fresh name labels) defaults).run ms).metrics.detail =
        .ofMarks (detailMarks ((fresh (Exporter.fresh name labels) defaults).trace ms)) := by
  refine run_invariant (motive := fun past s => s.metrics.health = .ofMarks (healthMarks past) ∧
    s.metrics.detail = .ofMarks (detailMarks past)) ⟨rfl, rfl⟩ (fun past s m h => ?_) ms
  obtain ⟨hhealth, hdetail⟩ := h
  rw [healthMarks_concat, detailMarks_concat, Family.ofMarks_append, Family.ofMarks_append,
    ← hhealth, ← hdetail, metrics_move]
  cases s.touch? m with
  | none => exact ⟨rfl, rfl⟩
  | some t =>
    rw [Option.elim_some, Option.toList_some, List.flatMap_singleton, List.flatMap_singleton]
    exact ⟨s.metrics.apply_health t, s.metrics.apply_detail t⟩

/-! ### Endpoints whose series are their own -/

/-- Nothing is done at the label values of an endpoint in service but by the loop that serves it. -/
def Undisturbed (past : List (Scheduler P × Move P)) : Prop :=
  ∀ p ∈ past, ∀ t ∈ p.1.touch? p.2, ∀ i ∈ p.1.serving, ∀ l ∈ p.1.loops[i]?,
    p.1.labelsOf l = t.labels → p.1.touch? (.loop i) = some t

instance (past : List (Scheduler P × Move P)) : Decidable (Undisturbed past) :=
  inferInstanceAs (Decidable (∀ p ∈ past, ∀ t ∈ p.1.touch? p.2, ∀ i ∈ p.1.serving,
    ∀ l ∈ p.1.loops[i]?, _ → _))

/-- What has been published for a loop was the last that was done at its label values. -/
structure LastSaid (past : List (Scheduler P × Move P)) (s : Scheduler P) (v : LabelValues)
    (p : Published) : Prop where
  health : ∀ healthy, p.health = some healthy → lastAt v (healthMarks past) = some (some healthy)
  detail : ∀ text, p.detail = some text → s.metrics.details.get? v = some text ∧
    lastAt (v.extended text) (detailMarks past) = some (some true)

theorem lastSaid_nothing (past : List (Scheduler P × Move P)) (s : Scheduler P) (v : LabelValues) :
    LastSaid past s v .nothing :=
  ⟨nofun, nofun⟩

/-- What is done at other label values changes nothing of this. -/
theorem LastSaid.aside {past : List (Scheduler P × Move P)} {s : Scheduler P} {m : Move P}
    {v : LabelValues} {p : Published} (h : LastSaid past s v p)
    (aside : ∀ t, s.touch? m = some t → t.labels ≠ v) :
    LastSaid (past ++ [(s, m)]) (s.move m) v p := by
  have hmarks {α : Type} {f : Touch → List (Mark α)} {w : LabelValues}
      (hf : ∀ t, s.touch? m = some t → ∀ n ∈ f t, n.labels ≠ w) :
      ∀ n ∈ (s.touch? m).toList.flatMap f, n.labels ≠ w := by
    intro n hn
    obtain ⟨t, ht, hn⟩ := List.mem_flatMap.mp hn
    exact hf t (Option.mem_toList.mp ht) n hn
  refine ⟨fun healthy hp => ?_, fun text hp => ⟨?_, ?_⟩⟩
  · rw [healthMarks_concat, lastAt_append_of_ne (hmarks fun t ht n hn => ?_)]
    · exact h.health healthy hp
    · rw [Touch.labels_of_mem_healthMarks hn]
      exact aside t ht
  · rw [metrics_move]
    cases ht : s.touch? m with
    | none => exact (h.detail text hp).1
    | some t =>
      rw [Option.elim_some, Exporter.apply_details_of_ne _ (aside t ht)]
      exact (h.detail text hp).1
  · rw [detailMarks_concat, lastAt_append_of_ne (hmarks fun t ht n hn heq => ?_)]
    · exact (h.detail text hp).2
    · obtain ⟨text', hlabels⟩ := Exporter.labels_of_mem_detailMarks hn
      exact aside t ht (LabelValues.extended_inj (hlabels.symm.trans heq)).1

/-- What a loop writes itself is the last that is said of it. -/
theorem LastSaid.write {past : List (Scheduler P × Move P)} {s : Scheduler P} {m : Move P}
    {t : Touch} {p : Published} (h : LastSaid past s t.labels p) (ht : s.touch? m = some t)
    (hc : ∀ place, t.change ≠ .cleared place) :
    LastSaid (past ++ [(s, m)]) (s.move m) t.labels (p.after t.change) := by
  have hhealth := healthMarks_concat past s m
  have hdetail := detailMarks_concat past s m
  have hmetrics := metrics_move s m
  rw [ht, Option.toList_some, List.flatMap_singleton] at hhealth hdetail
  rw [ht, Option.elim_some] at hmetrics
  obtain ⟨i, v, c⟩ := t
  cases c with
  | latency | status =>
    rw [Touch.healthMarks, List.append_nil] at hhealth
    rw [Exporter.detailMarks, List.append_nil] at hdetail
    refine ⟨fun healthy hp => hhealth ▸ h.health healthy hp, fun text hp => ?_⟩
    rw [hdetail, hmetrics]
    exact h.detail text hp
  | detail text =>
    rw [Touch.healthMarks, List.append_nil] at hhealth
    refine ⟨fun healthy hp => hhealth ▸ h.health healthy hp, fun text' hp => ?_⟩
    obtain rfl : text = text' := Option.some.inj hp
    rw [hdetail, hmetrics, Exporter.detailMarks, ← List.append_assoc]
    exact ⟨by simp [Exporter.apply], lastAt_concat_self ..⟩
  | health healthy =>
    rw [Exporter.detailMarks, List.append_nil] at hdetail
    refine ⟨fun healthy' hp => ?_, fun text hp => ?_⟩
    · obtain rfl : healthy = healthy' := Option.some.inj hp
      rw [hhealth]
      exact lastAt_concat_self ..
    · rw [hdetail, hmetrics]
      exact h.detail text hp
  | cleared place => exact absurd rfl (hc place)

/-- **A loop keeps the last word** by a move that does nothing at its label values but on its own
account. -/
theorem LastSaid.move {past : List (Scheduler P × Move P)} {s : Scheduler P} {m : Move P} {i : Nat}
    {l : CheckLoop P} (h : LastSaid past s (s.labelsOf l) (published past i))
    (hl : s.loops[i]? = some l)
    (own : ∀ t ∈ s.touch? m, s.labelsOf l = t.labels → s.touch? (.loop i) = some t) :
    LastSaid (past ++ [(s, m)]) (s.move m) (s.labelsOf l)
      (published (past ++ [(s, m)]) i) := by
  rw [published_concat]
  cases ht : s.touch? m with
  | none => exact h.aside fun t h => by simp [ht] at h
  | some t =>
    rw [Option.elim_some]
    by_cases hlabels : s.labelsOf l = t.labels
    · obtain ⟨l', -, -, ⟨hloop, hw⟩ | ⟨place, -, hcarried⟩⟩ := touch?_some (own t ht hlabels)
      · obtain rfl : i = t.loop := by simpa using hloop
        rw [if_pos rfl]
        rw [hlabels] at h ⊢
        exact h.write ht (CheckLoop.writing?_ne_cleared hw)
      · simp [carriedOut, driven] at hcarried
    · have hne : t.loop ≠ i := by
        rintro rfl
        obtain ⟨l', hl', hlabels', -⟩ := touch?_some ht
        obtain rfl := Option.some.inj (hl.symm.trans hl')
        exact hlabels hlabels'.symm
      rw [if_neg hne]
      refine h.aside fun t' ht' heq => hlabels ?_
      rw [← heq, Option.some.inj (ht'.symm.trans ht)]

/-- Nothing has been published for a loop that a move spawns. -/
theorem published_of_spawned {past : List (Scheduler P × Move P)} {s : Scheduler P}
    (h : Followed past s) (m : Move P) {i : Nat} (hnew : s.loops.length ≤ i) :
    published (past ++ [(s, m)]) i = .nothing := by
  have hnone : s.loops[i]? = none := List.getElem?_eq_none hnew
  have hnothing : outcomes past i = [] ∧ published past i = .nothing := by
    have := h i
    rwa [hnone] at this
  rw [published_concat]
  cases ht : s.touch? m with
  | none => exact hnothing.2
  | some t =>
    obtain ⟨l, hl, -⟩ := touch?_some ht
    have hne : t.loop ≠ i := by
      rintro rfl
      rw [hnone] at hl
      cases hl
    simpa [hne] using hnothing.2

/-- **Undisturbed endpoints have the last word** on their series. -/
theorem lastSaid_run (x : Exporter) (defaults : CheckPlan) {ms : List (Move P)}
    (undisturbed : Undisturbed ((fresh x defaults).trace ms)) {i : Nat} {l : CheckLoop P}
    (served : ((fresh x defaults).run ms).Serves i)
    (hl : ((fresh x defaults).run ms).loops[i]? = some l) :
    LastSaid ((fresh x defaults).trace ms) ((fresh x defaults).run ms)
      (((fresh x defaults).run ms).labelsOf l) (published ((fresh x defaults).trace ms) i) := by
  induction ms using List.reverseRecOn generalizing l with
  | nil => cases hl
  | append_singleton ms m ih =>
    have hs := owned_run x defaults ms
    have hfollowed := followed_run x defaults ms
    rw [trace_concat] at undisturbed ⊢
    rw [run_concat] at served hl ⊢
    generalize (fresh x defaults).trace ms = past at *
    generalize (fresh x defaults).run ms = s at *
    have heffect := effect_move s m
    rcases serves_of_effect hs heffect served with hserved | hnew
    · obtain ⟨l₀, hl₀⟩ : ∃ l₀, s.loops[i]? = some l₀ :=
        ⟨_, List.getElem?_eq_getElem (hs.slot i hserved)⟩
      have hold := ih (fun p hp => undisturbed p (List.mem_append_left _ hp)) hserved hl₀
      rw [labelsOf_move hl₀ hl]
      exact hold.move hl₀ fun t ht =>
        undisturbed (s, m) (by simp) t ht i (mem_serving.mpr hserved) l₀ hl₀
    · rw [published_of_spawned hfollowed m hnew]
      exact lastSaid_nothing ..

/-- **When an endpoint in service is shown**, whatever calls overlap with its checks. At rest its
loop has published its health and its detail. The exporter has the series of both just if, of all
that has been done at their keys, these are what stands. They do if nobody but the loops in service
themselves has done anything at their label values, and no other label values have the same keys. -/
theorem shown_iff_stands {name : String} {labels : List String} {defaults : CheckPlan}
    {ms : List (Move P)} {key : String} {i : Nat} {l : CheckLoop P} {healthy : Bool}
    (served : ((fresh (Exporter.fresh name labels) defaults).run ms).slots.get? key = some i)
    (hl : ((fresh (Exporter.fresh name labels) defaults).run ms).loops[i]? = some l)
    (quiet : l.isPublishing = false) (checked : l.state.tracker.healthy = some healthy) :
    let s := (fresh (Exporter.fresh name labels) defaults).run ms
    let past := (fresh (Exporter.fresh name labels) defaults).trace ms
    let detail := l.state.verdict.detail
    (published past i).health = some healthy ∧ (published past i).detail = some detail ∧
      (s.metrics.Has (s.labelsOf l) healthy detail ↔
        Stands (healthMarks past) (s.labelsOf l) healthy ∧
        Stands (detailMarks past) ((s.labelsOf l).extended detail) true) ∧
      (Undisturbed past → Unmixed (healthMarks past) → Unmixed (detailMarks past) →
        s.metrics.Has (s.labelsOf l) healthy detail) := by
  intro s past detail
  obtain ⟨hhealth, hdetail⟩ :=
    ((followed_run (Exporter.fresh name labels) defaults ms).get hl).told quiet checked
  obtain ⟨hhealths, hdetails⟩ := families_run name labels defaults ms
  have hiff : s.metrics.Has (s.labelsOf l) healthy detail ↔
      Stands (healthMarks past) (s.labelsOf l) healthy ∧
      Stands (detailMarks past) ((s.labelsOf l).extended detail) true := by
    rw [← Family.own?_ofMarks, ← Family.own?_ofMarks, ← hhealths, ← hdetails]
    exact ⟨fun h => ⟨h.health, h.detail⟩, fun h => ⟨h.1, h.2⟩⟩
  refine ⟨hhealth, hdetail, hiff, fun undisturbed unmixed unmixed' => hiff.mpr ?_⟩
  have hsaid := lastSaid_run (Exporter.fresh name labels) defaults undisturbed ⟨key, served⟩ hl
  exact ⟨unmixed.stands (hsaid.health healthy hhealth),
    unmixed'.stands (hsaid.detail detail hdetail).2⟩

/-! ### An endpoint that is removed and added -/

/-- Adds the endpoint. -/
def addition : Move Unit :=
  .add "db" .tcp true (Endpoint.plain "a" 1) ()

/-- The loop of the endpoint is told to stop, it ends, and its series are cleared. -/
def departure : List (Move Unit) :=
  .call 0 :: .loop 0 :: List.replicate 8 (.call 0)

/-- The endpoint is added and checked, removed, and added and checked again; the removal returns
before the addition. -/
def removedThenAdded : List (Move Unit) :=
  [[.start none, addition], checking 0 (.ok ()), [.remove "db" "a" 1], departure, [addition],
    checking 1 (.ok ())].flatten

/-- The same, but the removal is in flight while the endpoint is added and checked again. -/
def removedWhileAdded : List (Move Unit) :=
  [[.start none, addition], checking 0 (.ok ()), [.remove "db" "a" 1, addition],
    checking 1 (.ok ()), departure].flatten

theorem removedThenAdded_shown :
    ∃ l, (newApp.run removedThenAdded).loops[1]? = some l ∧
      (newApp.run removedThenAdded).metrics.Has ((newApp.run removedThenAdded).labelsOf l)
        true "ok" := by
  obtain ⟨l, hl, quiet, checked, hdetail⟩ : ∃ l ∈ (newApp.run removedThenAdded).loops[1]?,
      l.isPublishing = false ∧ l.state.tracker.healthy = some true ∧
        l.state.verdict.detail = "ok" := by
    decide +kernel
  have served : (newApp.run removedThenAdded).slots.get? "db:a:1" = some 1 := by decide +kernel
  have h := (shown_iff_stands served hl quiet checked).2.2.2
    (by decide +kernel) (by decide +kernel) (by decide +kernel)
  exact ⟨l, hl, hdetail ▸ h⟩

/-- All calls have returned, the endpoint is in service and healthy, and it has no series. -/
theorem removal_hides_addition :
    let s := newApp.run removedWhileAdded
    s.calls = [] ∧ (∀ l ∈ s.loops, l.isPublishing = false) ∧ s.health = [("db:a:1", true)] ∧
      s.metrics.health.toList = [] ∧ s.metrics.detail.toList = [] := by
  decide +kernel

end Scheduler

end HealthMonitor

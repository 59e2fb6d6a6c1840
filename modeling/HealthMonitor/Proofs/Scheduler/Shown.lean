import HealthMonitor.Proofs.Metrics.Faithful
import HealthMonitor.Proofs.Scheduler.Listing

/-!
# What is shown of the checks

Between its publications an endpoint is shown as the outcomes of its completed attempts have it, in
two places. The snapshots read the state of its loop, and never fail (`Reports`). The exporter has
the series that the loop has published, and shows them (`Exporter.Shows`) as long as it can tell
the endpoints apart: it finds a series by the key of its label values, and label values that run
together to the same text have the same key. `checks_shown` has both, with the exact condition for
the second; `collision_hides` is a pair of endpoints of which only one is shown.
-/

namespace HealthMonitor

namespace Scheduler

variable {P : Type}

/-- The snapshots of a scheduler report an endpoint by what some outcomes of its checks lead to. -/
structure Reports (s : Scheduler P) (key : String) (d : Dependency) (e : Endpoint)
    (outcomes : List Outcome) : Prop where
  health : ∀ healthy, (key, healthy) ∈ s.health ↔
    (Tracker.ofOutcomes d.plan outcomes).healthy = some healthy
  details : ∃ state : EndpointState, state.Reflects d.plan outcomes ∧
    ∀ status, (key, status) ∈ s.details ↔ status = EndpointStatus.ofState d e state

theorem reports_of_reflects {s : Scheduler P} {key : String} {i : Nat} {l : CheckLoop P}
    (served : s.slots.get? key = some i) (hl : s.loops[i]? = some l) {outcomes : List Outcome}
    (h : l.state.Reflects l.plan outcomes) :
    s.Reports key l.dependency l.endpoint outcomes := by
  refine ⟨fun healthy => ?_, l.state, h, fun status => ?_⟩
  · rw [← CheckLoop.plan, ← h.tracker, mem_health, served]
    simp [hl]
  · rw [mem_details, served]
    simp [hl]

/-! ### What the exporter has been told -/

/-- Every touch of a run is about a loop, at its label values. -/
theorem touches_of_loops (s₀ : Scheduler P) (ms : List (Move P)) :
    ∀ t ∈ touches (s₀.trace ms), ∃ l, (s₀.run ms).loops[t.loop]? = some l ∧
      t.labels = (s₀.run ms).labelsOf l := by
  refine run_invariant (motive := fun past s => ∀ t ∈ touches past, ∃ l,
    s.loops[t.loop]? = some l ∧ t.labels = s.labelsOf l) (List.forall_mem_nil _)
    (fun past s m h t ht => ?_) ms
  have hold : ∃ l, s.loops[t.loop]? = some l ∧ t.labels = s.labelsOf l := by
    rw [touches_concat, List.mem_append, Option.mem_toList] at ht
    rcases ht with ht | ht
    · exact h t ht
    · obtain ⟨l, hl, hlabels, -⟩ := touch?_some ht
      exact ⟨l, hl, hlabels⟩
  obtain ⟨l, hl, hlabels⟩ := hold
  obtain ⟨l', hl', -⟩ := (effect_move s m).loopsGoOn.2 t.loop l hl
  exact ⟨l', hl', hlabels.trans (labelsOf_move hl hl').symm⟩

theorem told_apply (ts : List Touch) (v : LabelValues) :
    Told.of ts v = ts.foldl (fun p t => if t.labels = v then p.after t.change else p) .nothing := by
  induction ts using List.reverseRecOn with
  | nil => rfl
  | append_singleton ts t ih =>
    rw [Told.of, List.foldl_append, List.foldl_append, ← ih]
    by_cases hv : t.labels = v
    · subst hv
      simp [Told.of, Told.after]
    · simp [Told.of, Told.after, hv, Ne.symm hv]

/-- Where label values tell loops apart, what has been published at those of a loop is what has been
published for it. -/
theorem told_labelsOf {s₀ : Scheduler P} {ms : List (Move P)} (fixed : (s₀.run ms).Fixed) {i : Nat}
    {l : CheckLoop P} (hl : (s₀.run ms).loops[i]? = some l) :
    Told.of (touches (s₀.trace ms)) ((s₀.run ms).labelsOf l) = published (s₀.trace ms) i := by
  rw [told_apply, published]
  refine List.foldl_ext _ _ _ fun p t ht => ?_
  obtain ⟨l', hl', hlabels⟩ := touches_of_loops s₀ ms t ht
  have hiff : t.labels = (s₀.run ms).labelsOf l ↔ t.loop = i := by
    rw [hlabels]
    constructor
    · exact fixed.labelsOf_injective hl' hl
    · rintro rfl
      rw [Option.some.inj (hl'.symm.trans hl)]
  simp only [hiff]

/-- Nothing has been published at label values of no loop. -/
theorem told_of_no_loop {s₀ : Scheduler P} {ms : List (Move P)} {v : LabelValues}
    (h : ∀ (i : Nat) (l : CheckLoop P), (s₀.run ms).loops[i]? = some l →
      (s₀.run ms).labelsOf l ≠ v) : Told.of (touches (s₀.trace ms)) v = .nothing := by
  rw [told_apply, List.foldl_ext _ (fun p _ => p) _ fun p t ht => ?_, List.foldl_fixed]
  obtain ⟨l, hl, hlabels⟩ := touches_of_loops s₀ ms t ht
  rw [if_neg (hlabels ▸ h t.loop l hl)]

/-! ### The series of all endpoints, at every moment of a run -/

/-- At no moment of a run two series that there should be have the same key. -/
def AlwaysApart (s₀ : Scheduler P) (ms : List (Move P)) : Prop :=
  ∀ ns, ns <+: ms → (Told.of (touches (s₀.trace ns))).Apart

/-- At every moment of a run the exporter shows of every endpoint what has been published for it. -/
def AlwaysShown (s₀ : Scheduler P) (ms : List (Move P)) : Prop :=
  ∀ ns, ns <+: ms → ∀ (i : Nat) (l : CheckLoop P), (s₀.run ns).loops[i]? = some l →
    (s₀.run ns).metrics.Shows ((s₀.run ns).labelsOf l) (published (s₀.trace ns) i)

/-- Touches of which all series have different keys are always apart. -/
theorem alwaysApart_of_keysDiffer {s₀ : Scheduler P} {ms : List (Move P)}
    (h : KeysDiffer (touches (s₀.trace ms))) : AlwaysApart s₀ ms := by
  rintro ns ⟨rest, rfl⟩
  refine (h.mono ?_).apart
  rw [trace_append, touches, touches, List.filterMap_append]
  exact List.prefix_append ..

section Static

variable {name : String} {labels : List String} {defaults : CheckPlan} {ms : List (Move P)}

/-- **An exporter that can tell the endpoints apart is faithful.** -/
theorem faithful_run (static : ∀ m ∈ ms, m.isDynamic = false)
    (apart : AlwaysApart (fresh (Exporter.fresh name labels) defaults) ms) :
    ((fresh (Exporter.fresh name labels) defaults).run ms).metrics.Faithful
      (Told.of (touches ((fresh (Exporter.fresh name labels) defaults).trace ms))) := by
  induction ms using List.reverseRecOn with
  | nil => exact Exporter.faithful_fresh name labels
  | append_singleton ms m ih =>
    have static' : ∀ n ∈ ms, n.isDynamic = false := fun n hn => static n (by simp [hn])
    have hfaithful := ih static' fun ns hns => apart ns (hns.trans (List.prefix_append ms [m]))
    have hfixed := fixed_run (Exporter.fresh name labels) defaults static'
    have happart := apart _ List.prefix_rfl
    rw [trace_concat, touches_concat, Told.of, List.foldl_append, ← Told.of] at happart ⊢
    rw [run_concat, metrics_move]
    cases ht : ((fresh (Exporter.fresh name labels) defaults).run ms).touch? m with
    | none => exact hfaithful
    | some t =>
      -- nobody clears anything, so the touch is a write
      rw [ht] at happart
      exact hfaithful.write (hfixed.touch_ne_cleared ht) happart

theorem alwaysShown_iff_alwaysApart (static : ∀ m ∈ ms, m.isDynamic = false) :
    AlwaysShown (fresh (Exporter.fresh name labels) defaults) ms ↔
      AlwaysApart (fresh (Exporter.fresh name labels) defaults) ms := by
  have fixed (ns : List (Move P)) (hns : ns <+: ms) :=
    fixed_run (Exporter.fresh name labels) defaults fun m hm => static m (hns.subset hm)
  constructor
  · refine fun h ns hns => Exporter.apart_of_shows
      (x := ((fresh (Exporter.fresh name labels) defaults).run ns).metrics) fun v => ?_
    -- label values of a loop are shown, and at any others there has been nothing to show
    by_cases hv : ∃ (i : Nat) (l : CheckLoop P),
        ((fresh (Exporter.fresh name labels) defaults).run ns).loops[i]? = some l ∧
          ((fresh (Exporter.fresh name labels) defaults).run ns).labelsOf l = v
    · obtain ⟨i, l, hl, rfl⟩ := hv
      refine Or.inr ?_
      rw [told_labelsOf (fixed ns hns) hl]
      exact h ns hns i l hl
    · exact Or.inl (told_of_no_loop fun i l hl hlabels => hv ⟨i, l, hl, hlabels⟩)
  · intro h ns hns i l hl
    rw [← told_labelsOf (fixed ns hns) hl]
    exact (faithful_run (fun m hm => static m (hns.subset hm))
      fun ns' hns' => h ns' (hns'.trans hns)).shows _

end Static

/-! ### The endpoints of a start -/

/-- **The checks of an endpoint are shown as they are**, in two places. When the scheduler has
started and its loops and probes take steps in any order, then for the last listing of every key,
whenever its loop is not publishing:

* the snapshots report what the outcomes of its completed attempts lead to;
* the exporter shows it as well, if it can tell the series of all endpoints apart. Without outcomes
  that is to have no series of the endpoint (`Exporter.shows_nothing_iff`).

The exporter shows every endpoint at every moment just if it can tell them apart at every moment. -/
theorem checks_shown {name : String} {labels : List String} {defaults : CheckPlan}
    {regs : List (Dependency × P)} {outer : Option Instant} {ms : List (Move P)}
    (usable : Exporter.bucketLabel ∉ labels)
    (valid : ∀ r ∈ regs, r.1.validate = .ok ()) (static : ∀ m ∈ ms, m.isDynamic = false) :
    let s₀ := fresh (Exporter.fresh name labels) defaults
    let moves := startUp regs outer ++ ms
    (∀ key d e probe, lastListing regs key = some (d, e, probe) →
      ∃ i l, (s₀.run moves).slots.get? key = some i ∧ (s₀.run moves).loops[i]? = some l ∧
        l.dependency = d ∧ l.endpoint = e ∧ l.probe = probe ∧
        (l.isPublishing = false →
          (s₀.run moves).Reports key d e (outcomes (s₀.trace moves) i) ∧
          (AlwaysApart s₀ moves → (s₀.run moves).metrics.Shows ((s₀.run moves).labelsOf l)
            (.ofOutcomes d.plan (outcomes (s₀.trace moves) i))))) ∧
    (AlwaysShown s₀ moves ↔ AlwaysApart s₀ moves) := by
  intro s₀ moves
  have static' : ∀ m ∈ moves, m.isDynamic = false := fun m hm =>
    (List.mem_append.mp hm).elim (startUp_static regs outer m) (static m)
  have hshown : AlwaysShown s₀ moves ↔ AlwaysApart s₀ moves := alwaysShown_iff_alwaysApart static'
  refine ⟨fun key d e probe listed => ?_, hshown⟩
  obtain ⟨i, hserved, hspawned⟩ :=
    serves_lastListing (Exporter.fresh name labels) defaults valid outer listed
  have started : (s₀.run (startUp regs outer)).lifecycle ≠ .idle := by
    rw [lifecycle_startUp _ defaults valid outer]
    nofun
  obtain ⟨hserved, l, hl, hgo⟩ := serves_run started static hserved hspawned
  rw [← run_append] at hserved hl
  have hfollows := (followed_run (Exporter.fresh name labels) defaults moves).get hl
  have husable : (Exporter.fresh name labels).latencyUsable = true := by
    simpa [Exporter.latencyUsable, Exporter.fresh] using usable
  rw [latencyUsable_run, husable] at hfollows
  obtain rfl : l.dependency = d := hgo.dependency
  obtain rfl : l.endpoint = e := hgo.endpoint
  refine ⟨i, l, hserved, hl, rfl, rfl, hgo.probe, fun quiet => ?_⟩
  obtain ⟨hstate, hpublished⟩ := hfollows.at_rest quiet
  refine ⟨reports_of_reflects hserved hl hstate, fun apart => ?_⟩
  have hshows := hshown.mpr apart moves List.prefix_rfl i l hl
  rwa [hpublished] at hshows

/-! ### Two endpoints -/

/-- Two hosts that an exporter tells apart are shown at every moment. -/
theorem distinct_hosts_shown :
    AlwaysShown newApp
      (startUp [(database [Endpoint.plain "a" 1, Endpoint.plain "b" 2], ())] none ++
        (checking 0 (.ok ()) ++ checking 1 (.error .timeout))) :=
  (checks_shown (by decide) (by decide +kernel) (by decide +kernel)).2.mpr
    (alwaysApart_of_keysDiffer (by decide +kernel))

/-- The label values of `h1:1` and `h:11` run together to one text. Both have been checked, and the
snapshots report both, but the one series of health, which the first has made, has the health of the
second. -/
theorem collision_hides :
    let d := database [Endpoint.plain "h1" 1, Endpoint.plain "h" 11]
    let moves := startUp [(d, ())] none ++ (checking 0 (.ok ()) ++ checking 1 (.error .refused))
    (∀ l ∈ (newApp.run moves).loops, l.isPublishing = false) ∧
      (outcomes (newApp.trace moves) 0).map Verdict.ofOutcome = [.ok] ∧
      (outcomes (newApp.trace moves) 1).map Verdict.ofOutcome = [.refused] ∧
      (newApp.run moves).health = [("db:h1:1", true), ("db:h:11", false)] ∧
      (newApp.run moves).metrics.health.toList =
        [⟨newApp.metrics.labelValues d (Endpoint.plain "h1" 1), false⟩] := by
  decide +kernel

end Scheduler

end HealthMonitor

import HealthMonitor.Proofs.Probe.Candid
import HealthMonitor.Proofs.Scheduler.Attempts

/-!
# What a check counts as

A check that has been completed is counted by its tracker and flagged in one of the eight series of
its status. Both go by the verdict. So as long as outcomes are candid the tracker counts a success
just when the probe has returned one, and one series is flagged if its key is its own
(`LabelValues.Singles`); `checks_counted` has each of the two with its exact condition.
`misleading_tags` are two failed checks, of which one counts as a success and the other flags no
series.
-/

namespace HealthMonitor

/-! ### One record -/

namespace Tracker

theorem successes_record (t : Tracker) (success : Bool) :
    (t.record success).2.successes = if success then t.successes + 1 else 0 := by
  cases success <;> rfl

/-- Successes and failures are not counted alike. -/
theorem record_inj {t : Tracker} {a b : Bool} : (t.record a).2 = (t.record b).2 ↔ a = b := by
  constructor
  · intro h
    have hsuccesses := congrArg Tracker.successes h
    rw [successes_record, successes_record] at hsuccesses
    cases a <;> cases b <;> simp_all
  · rintro rfl
    rfl

end Tracker

/-- A verdict counts as its outcome does if the category is `ok` for a check that went well and for
no other. -/
theorem Verdict.isOk_eq_iff (o : Outcome) :
    (ofOutcome o).isOk = o.isOk ↔ ((ofOutcome o).category = .ok ↔ o = .ok ()) := by
  cases o with
  | ok => simp [isOk, ofOutcome, ok, Except.isOk, Except.toBool]
  | error f => exact decide_eq_false_iff_not.trans (by simp)

/-! ### One status -/

/-- No other category has its series at some label values under the key of a category's. -/
def LabelValues.Singles (v : LabelValues) (category : Category) : Prop :=
  ∀ c ∈ Category.all, (v.extended c.text).key = (v.extended category.text).key → c = category

instance (v : LabelValues) (category : Category) : Decidable (v.Singles category) :=
  inferInstanceAs (Decidable (∀ c ∈ Category.all, _))

theorem Category.mem_all {category : Category} : category ∈ all ↔ category ≠ .unknown := by
  cases category <;> decide

theorem Category.filter_all {category : Category} (h : category ∈ all) :
    (all.filter fun c => c = category) = [category] := by
  revert h
  cases category <;> decide

namespace Exporter

/-- The categories of which the series of some label values is flagged. -/
def flagged (x : Exporter) (v : LabelValues) : List Category :=
  Category.all.filter fun c => x.status.get? (v.extended c.text) = some true

/-- Of several series under one key the last one that is set counts. -/
theorem get?_foldl_set (f : Family Bool) (v : LabelValues) (value : Category → Bool)
    (cs : List Category) (w : LabelValues) :
    (cs.foldl (fun f c => f.set (v.extended c.text) (value c)) f).get? w =
      match cs.reverse.find? fun c => w.key = (v.extended c.text).key with
      | some c => some (value c)
      | none => f.get? w := by
  induction cs using List.reverseRecOn with
  | nil => rfl
  | append_singleton cs c ih =>
    rw [List.foldl_append, List.foldl_cons, List.foldl_nil, Family.get?_set, List.reverse_append,
      List.reverse_singleton, List.singleton_append, List.find?_cons]
    by_cases hkey : w.key = (v.extended c.text).key
    · simp [hkey]
    · simpa [hkey] using ih

/-- Every category finds one under its key, the last one of them. -/
theorem find?_all_reverse (v : LabelValues) {c : Category} (hc : c ∈ Category.all) :
    ∃ d, (Category.all.reverse.find? fun d =>
      (v.extended c.text).key = (v.extended d.text).key) = some d :=
  Option.isSome_iff_exists.mp
    (List.find?_isSome.mpr ⟨c, List.mem_reverse.mpr hc, decide_eq_true rfl⟩)

/-- After a status has been set a category is flagged if the last one under its key is that status.
-/
theorem mem_flagged_apply_status {x : Exporter} {v : LabelValues} {category c : Category} :
    c ∈ (x.apply v (.status category)).flagged v ↔ c ∈ Category.all ∧
      (Category.all.reverse.find? fun c' =>
        (v.extended c.text).key = (v.extended c'.text).key) = some category := by
  rw [flagged, List.mem_filter, apply, get?_foldl_set]
  refine and_congr_right fun hc => ?_
  obtain ⟨d, hd⟩ := find?_all_reverse v hc
  simp [hd]

/-- **After a status has been set its series alone is flagged**, if it has one and no other series
stands under its key. -/
theorem flagged_apply_status (x : Exporter) (v : LabelValues) (category : Category) :
    (x.apply v (.status category)).flagged v = [category] ↔
      category ≠ .unknown ∧ v.Singles category := by
  constructor
  · intro alone
    have hmem (c : Category) : c ∈ (x.apply v (.status category)).flagged v ↔ c = category := by
      rw [alone, List.mem_singleton]
    obtain ⟨hall, hfind⟩ := mem_flagged_apply_status.mp ((hmem category).mpr rfl)
    refine ⟨Category.mem_all.mp hall, fun c hc hkey => (hmem c).mp ?_⟩
    -- a category under the same key is flagged together with it
    exact mem_flagged_apply_status.mpr ⟨hc, by rwa [hkey]⟩
  · rintro ⟨known, singles⟩
    have hall : category ∈ Category.all := Category.mem_all.mpr known
    have hmem (c : Category) (hc : c ∈ Category.all) :
        c ∈ (x.apply v (.status category)).flagged v ↔ c = category := by
      rw [mem_flagged_apply_status, and_iff_right hc]
      constructor
      · intro hfind
        exact singles c hc (by simpa using List.find?_some hfind)
      · -- the last category under the key is set to its own value, and that is the category itself
        rintro rfl
        obtain ⟨d, hfind⟩ := find?_all_reverse v hall
        have hd : d ∈ Category.all := List.mem_reverse.mp (List.mem_of_find?_eq_some hfind)
        have hkey : (v.extended c.text).key = (v.extended d.text).key := by
          simpa using List.find?_some hfind
        rwa [singles d hd hkey.symm] at hfind
    calc (x.apply v (.status category)).flagged v
      _ = Category.all.filter fun c => c = category := by
        refine List.filter_congr fun c hc => decide_eq_decide.mpr ?_
        simpa [flagged, hc] using hmem c hc
      _ = [category] := Category.filter_all hall

end Exporter

/-! ### One check -/

namespace CheckLoop

variable {P : Type}

/-- The place that a loop writes to by its next step, if it publishes. -/
def nextPlace? (l : CheckLoop P) : Option Place :=
  match l.phase with
  | .publishing p => p.left.head?
  | _ => none

theorem nextPlace?_some {l : CheckLoop P} {place : Place} (h : l.nextPlace? = some place) :
    ∃ p rest, l.phase = .publishing p ∧ p.left = place :: rest := by
  unfold nextPlace? at h
  split at h
  next p hp =>
    obtain ⟨rest, hrest⟩ := List.head?_eq_some_iff.mp h
    exact ⟨p, rest, hp, hrest⟩
  next => cases h

/-- What a loop publishes is the verdict on the last of its outcomes. -/
theorem Follows.verdict {l : CheckLoop P} {usable : Bool} {outcomes : List Outcome}
    {pub : Published} (h : l.Follows usable outcomes pub) {p : Publication}
    (phase : l.phase = .publishing p) {o : Outcome} (last : outcomes.getLast? = some o) :
    p.verdict = Verdict.ofOutcome o := by
  obtain ⟨before, o', rfl, _, _, verdict, _⟩ := h.of_publishing phase
  rw [verdict, show o' = o by simpa using last]

end CheckLoop

namespace Scheduler

variable {P : Type} {s : Scheduler P} {i : Nat} {l : CheckLoop P} {p : Publication}
  {rest : List Place}

/-- The step that writes the state of a loop counts the verdict there. -/
theorem move_recording (hl : s.loops[i]? = some l) (publishing : l.phase = .publishing p)
    (next : p.left = .state :: rest) :
    ∃ l', (s.move (.loop i)).loops[i]? = some l' ∧
      l'.state.tracker = (l.state.tracker.record p.verdict.isOk).2 := by
  obtain ⟨q, hq, htracker⟩ : ∃ q, l.step s.metrics s.now = some q ∧
      q.loop.state.tracker = (l.state.tracker.record p.verdict.isOk).2 := by
    simp only [CheckLoop.step, publishing, CheckLoop.publishOn, next, CheckLoop.write?]
    exact ⟨_, rfl, rfl⟩
  exact ⟨q.loop, getElem?_move_loop hl hq, htracker⟩

/-- The step that writes the category flags it for the label values of the loop. -/
theorem move_flagging (hl : s.loops[i]? = some l) (publishing : l.phase = .publishing p)
    (next : p.left = .status :: rest) :
    (s.move (.loop i)).metrics = s.metrics.apply (s.labelsOf l) (.status p.verdict.category) := by
  have hwriting : l.writing? s.metrics = some (.status p.verdict.category) := by
    simp [CheckLoop.writing?, publishing, next]
  have htouch : s.touch? (.loop i) = some ⟨i, s.labelsOf l, .status p.verdict.category⟩ := by
    simp [touch?, hl, hwriting]
  rw [metrics_move, htouch, Option.elim_some]

/-- **A completed check counts as what the probe returned, just if its outcome is candid.** Whenever
a loop of a run has completed an attempt:

* as its next step records the check, the tracker counts a success for a success and a failure for a
  failure, just if the verdict is `ok` for no other outcome than a success;
* as its next step sets the status, of the eight series that of the verdict is flagged and no other,
  just if the verdict is not `unknown` and no other of the eight stands under the key of its series.

The verdict is `ok` for a success alone and never `unknown`, just if the outcome is candid. -/
theorem checks_counted (x : Exporter) (defaults : CheckPlan) :
    (∀ o, Candid o ↔
      ((Verdict.ofOutcome o).category = .ok ↔ o = .ok ()) ∧
        (Verdict.ofOutcome o).category ≠ .unknown) ∧
    ∀ (ms : List (Move P)) (i : Nat) (l : CheckLoop P) (o : Outcome),
      let s := (fresh x defaults).run ms
      s.loops[i]? = some l → (outcomes ((fresh x defaults).trace ms) i).getLast? = some o →
        (l.nextPlace? = some .state → ∃ l', (s.move (.loop i)).loops[i]? = some l' ∧
          (l'.state.tracker = (l.state.tracker.record o.isOk).2 ↔
            ((Verdict.ofOutcome o).category = .ok ↔ o = .ok ()))) ∧
        (l.nextPlace? = some .status →
          ((s.move (.loop i)).metrics.flagged (s.labelsOf l) = [(Verdict.ofOutcome o).category] ↔
            (Verdict.ofOutcome o).category ≠ .unknown ∧
              (s.labelsOf l).Singles (Verdict.ofOutcome o).category)) := by
  refine ⟨candid_iff, ?_⟩
  intro ms i l o s hl last
  have hfollows := (followed_run x defaults ms).get hl
  constructor
  · intro next
    obtain ⟨p, rest, publishing, next⟩ := CheckLoop.nextPlace?_some next
    obtain ⟨l', hl', htracker⟩ := move_recording hl publishing next
    refine ⟨l', hl', ?_⟩
    rw [htracker, hfollows.verdict publishing last, Tracker.record_inj, Verdict.isOk_eq_iff]
  · intro next
    obtain ⟨p, rest, publishing, next⟩ := CheckLoop.nextPlace?_some next
    rw [move_flagging hl publishing next, hfollows.verdict publishing last,
      Exporter.flagged_apply_status]

/-! ### Two endings -/

/-- The moves that register a database, start, and check it once with an outcome. -/
def checkedOnce (o : Outcome) : List (Move Unit) :=
  [.register (database [Endpoint.plain "h" 1]) (), .start none] ++ checking 0 o

/-- A check that ends with a refused connection, after some of its moves. -/
def refusedUpTo (n : Nat) : Scheduler Unit :=
  newApp.run ((checkedOnce (.error .refused)).take n)

/-- A refused connection, where its status is set and where it is recorded. -/
theorem refused_counted :
    (∃ l, (refusedUpTo 6).loops[0]? = some l ∧
      ((refusedUpTo 6).move (.loop 0)).metrics.flagged ((refusedUpTo 6).labelsOf l) =
        [.connectionError]) ∧
    ∃ l l', (refusedUpTo 8).loops[0]? = some l ∧
      ((refusedUpTo 8).move (.loop 0)).loops[0]? = some l' ∧
      l'.state.tracker = (l.state.tracker.record false).2 := by
  have counted := (checks_counted (P := Unit) (Exporter.fresh "app" []) CheckPlan.prompt).2
  constructor
  · have next : (refusedUpTo 6).loops[0]?.bind CheckLoop.nextPlace? = some .status := by
      decide +kernel
    have singles : ∀ l ∈ (refusedUpTo 6).loops,
        ((refusedUpTo 6).labelsOf l).Singles .connectionError := by decide +kernel
    obtain ⟨l, hl, next⟩ := Option.bind_eq_some_iff.mp next
    have flagged := (counted _ 0 l (.error .refused) hl rfl).2 next
    exact ⟨l, hl, flagged.2 ⟨by decide, singles l (List.mem_of_getElem? hl)⟩⟩
  · have next : (refusedUpTo 8).loops[0]?.bind CheckLoop.nextPlace? = some .state := by
      decide +kernel
    obtain ⟨l, hl, next⟩ := Option.bind_eq_some_iff.mp next
    obtain ⟨l', hl', recorded⟩ := (counted _ 0 l (.error .refused) hl rfl).1 next
    exact ⟨l, l', hl, hl', recorded.2 ⟨nofun, nofun⟩⟩

/-- Two failed checks with misleading tags. One makes its endpoint healthy; after the other, no
category is flagged. -/
theorem misleading_tags :
    let checked (category : Category) :=
      newApp.run (checkedOnce (.error (.classified category "told" "not checked")))
    let v := newApp.metrics.labelValues (database [Endpoint.plain "h" 1]) (Endpoint.plain "h" 1)
    (checked .ok).health = [("db:h:1", true)] ∧
      ∀ c ∈ Category.all,
        (checked .unknown).metrics.status.get? (v.extended c.text) = some false := by
  decide +kernel

end Scheduler

end HealthMonitor

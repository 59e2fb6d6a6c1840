import HealthMonitor.Probe.BuiltIn
import HealthMonitor.Proofs.Monitor.Build
import Mathlib.Data.List.TakeWhile

/-!
# What a failed build leaves in its registry

The families of an exporter are registered one after another, up to the first whose name is taken,
and nothing takes them out again (`FamilyRegistry.registerAll_eq`). A build gets as far as that once
its name, its specs and its labels are in order (`Blueprint.Registers`), and it can still fail:
another name may be taken, or the plan of added endpoints, which is looked at only afterwards, may
be invalid. `failed_build_familyRegistry` says exactly which failed builds leave the registry as it
was; `hasty_build` is one that does not.
-/

namespace HealthMonitor

open Checks

/-! ### Registering families -/

namespace FamilyRegistry

/-- Whether a name is free in a registry. -/
def lacks (r : FamilyRegistry) (family : String) : Bool :=
  !r.families.contains family

/-- A registry with families added to it up to the first whose name was taken before. -/
def covering (r : FamilyRegistry) (families : List String) : FamilyRegistry :=
  ⟨r.families ++ families.takeWhile r.lacks⟩

/-- The induction is over the families that are left; those before them stand behind what was
there. -/
private theorem registerAll_from {held done families : List String}
    (distinct : (done ++ families).Nodup) :
    registerAll ⟨held ++ done⟩ families =
      (⟨held ++ done ++ families.takeWhile (lacks ⟨held⟩)⟩, families.all (lacks ⟨held⟩)) := by
  induction families generalizing done with
  | nil => simp [registerAll]
  | cons f rest ih =>
    have hdone : f ∉ done := fun h =>
      (List.nodup_append.mp distinct).2.2 f h f List.mem_cons_self rfl
    by_cases taken : f ∈ held
    · simp [registerAll, register?, lacks, taken]
    · have hrest : registerAll ⟨held ++ (done ++ [f])⟩ rest = _ := ih (by rwa [List.append_assoc])
      simp [registerAll, register?, lacks, taken, hdone, hrest]

/-- **Families are registered up to the first whose name is taken.** -/
theorem registerAll_eq (r : FamilyRegistry) {families : List String} (distinct : families.Nodup) :
    r.registerAll families = (r.covering families, families.all r.lacks) := by
  have h : registerAll ⟨r.families ++ []⟩ families = _ := registerAll_from distinct
  rwa [List.append_nil] at h

/-- Registering families adds nothing just if the first name is taken. -/
theorem covering_eq_iff {r : FamilyRegistry} {f : String} {rest : List String} :
    r.covering (f :: rest) = r ↔ f ∈ r.families := by
  obtain ⟨held⟩ := r
  by_cases taken : f ∈ held <;> simp [covering, lacks, taken]

/-- Whatever becomes of the others, the first name is taken then. -/
theorem mem_covering (r : FamilyRegistry) (f : String) (rest : List String) :
    f ∈ (r.covering (f :: rest)).families := by
  by_cases taken : f ∈ r.families <;> simp [covering, lacks, taken]

end FamilyRegistry

namespace Exporter

theorem families_nodup : families.Nodup := by decide

/-- An exporter that is prepared is made if all names of its families are free. -/
theorem create_of_prepared {name : String} {labels : List String} {x : Exporter}
    (prepared : prepare name labels = .ok x) (r : FamilyRegistry) :
    create name labels r =
      (if families.all r.lacks then .ok x else .error .takenFamily, r.covering families) := by
  rw [create, prepared, FamilyRegistry.registerAll_eq r families_nodup]
  cases families.all r.lacks <;> rfl

theorem create_of_unprepared {name : String} {labels : List String} {e : MetricsError}
    (unprepared : prepare name labels = .error e) (r : FamilyRegistry) :
    create name labels r = (.error e, r) := by
  rw [create, unprepared]

end Exporter

open Exporter

namespace Blueprint

variable {P : Type}

/-- A build gets as far as to register its families. -/
def Registers (b : Blueprint P) : Prop :=
  ∃ name rs x, b.instanceName = .ok name ∧ b.resolve.1 = .ok rs ∧
    prepare name (labelNames rs) = .ok x

/-! ### Putting the parts together -/

/-- Valid dependencies are registered before the start. -/
theorem registerAll_of_valid {rs : List (Resolved P)}
    (valid : ∀ r ∈ rs, r.dependency.validate = .ok ()) {s : Scheduler (Handle P)}
    (idle : s.lifecycle = .idle) : ∃ s', registerAll s rs = .ok s' := by
  induction rs generalizing s with
  | nil => exact ⟨s, rfl⟩
  | cons r rs ih =>
    obtain ⟨hr, hrs⟩ := List.forall_mem_cons.mp valid
    obtain ⟨s₁, hregister, idle₁⟩ :
        ∃ s₁, s.register r.dependency r.handle = .ok s₁ ∧ s₁.lifecycle = .idle := by
      simp [Scheduler.register, hr, idle, Except.mapError, bind, Except.bind, pure, Except.pure]
    obtain ⟨s', hs'⟩ := ih hrs idle₁
    refine ⟨s', ?_⟩
    rw [registerAll, List.foldlM_cons, hregister]
    exact hs'

/-- What has been resolved is put together unless the plan of added endpoints is invalid. -/
theorem assemble_eq_error_iff {b : Blueprint P} {name : String} {x : Exporter}
    {rs : List (Resolved P)} (resolved : b.resolve.1 = .ok rs) :
    (∃ e, b.assemble name x rs = .error e) ↔ ∃ e, b.addedPlan.validate = .error e := by
  obtain ⟨s, hs⟩ := registerAll_of_valid (fun r hr => validate_of_resolved resolved hr)
    (s := Scheduler.fresh x b.addedPlan) rfl
  cases hplan : b.addedPlan.validate with
  | error e =>
    refine ⟨fun _ => ⟨e, rfl⟩, fun _ => ⟨.config e, ?_⟩⟩
    rw [addedPlan] at hplan
    simp [assemble, hplan, Except.mapError, bind, Except.bind]
  | ok =>
    rw [addedPlan] at hplan hs
    simp [assemble, hplan, hs, Except.mapError, bind, Except.bind, pure, Except.pure]

/-! ### The build -/

section Build

variable {b : Blueprint P} {r : FamilyRegistry}

/-- A build with its name and its specs in order depends on whether the exporter can be made. -/
theorem build_of_resolved (given : b.familyRegistry = some r) {name : String}
    {rs : List (Resolved P)} (named : b.instanceName = .ok name) (resolved : b.resolve.1 = .ok rs) :
    b.build.familyRegistry = some (create name (labelNames rs) r).2 ∧
      b.build.result = match (create name (labelNames rs) r).1 with
        | .error e => .error (.metrics e)
        | .ok x => b.assemble name x rs := by
  obtain ⟨result, requests, hresolve⟩ : ∃ result requests, b.resolve = (result, requests) :=
    ⟨_, _, rfl⟩
  rw [hresolve] at resolved
  obtain rfl : result = .ok rs := resolved
  simp only [build, named, hresolve, given, Option.getD_some, Option.map_some]
  cases (create name (labelNames rs) r).1 <;> exact ⟨rfl, rfl⟩

/-- A build that gets as far as to register its families fails over them or over the added plan. -/
theorem build_of_registers (given : b.familyRegistry = some r) (registers : b.Registers) :
    b.build.familyRegistry = some (r.covering families) ∧
      ((∃ e, b.build.result = .error e) ↔
        (∃ f ∈ families, f ∈ r.families) ∨ ∃ e, b.addedPlan.validate = .error e) := by
  obtain ⟨name, rs, x, named, resolved, prepared⟩ := registers
  obtain ⟨hleft, hresult⟩ := build_of_resolved given named resolved
  rw [create_of_prepared prepared] at hleft hresult
  refine ⟨hleft, ?_⟩
  rw [hresult]
  have hfree : families.all r.lacks = true ↔ ¬ ∃ f ∈ families, f ∈ r.families := by
    simp [FamilyRegistry.lacks]
  by_cases free : families.all r.lacks = true
  · simp only [if_pos free, or_iff_right (hfree.mp free)]
    exact assemble_eq_error_iff resolved
  · simp only [if_neg free]
    exact ⟨fun _ => Or.inl (Classical.not_not.mp (hfree.not.mp free)), fun _ => ⟨_, rfl⟩⟩

/-- A build that does not get that far fails and leaves the registry as it was. -/
theorem build_of_not_registers (given : b.familyRegistry = some r) (unready : ¬ b.Registers) :
    b.build.familyRegistry = some r ∧ ∃ e, b.build.result = .error e := by
  cases named : b.instanceName with
  | error e => simp [build, named, given]
  | ok name =>
    cases resolved : b.resolve.1 with
    | error e =>
      obtain ⟨result, requests, hresolve⟩ : ∃ result requests, b.resolve = (result, requests) :=
        ⟨_, _, rfl⟩
      rw [hresolve] at resolved
      obtain rfl : result = .error e := resolved
      simp [build, named, hresolve, given]
    | ok rs =>
      obtain ⟨hleft, hresult⟩ := build_of_resolved given named resolved
      cases prepared : prepare name (labelNames rs) with
      | ok x => exact absurd ⟨name, rs, x, named, resolved, prepared⟩ unready
      | error e =>
        rw [create_of_unprepared prepared] at hleft hresult
        exact ⟨hleft, _, hresult⟩

/-- With a registry that already has the first family no build succeeds. -/
theorem build_fails_of_mem (given : b.familyRegistry = some r) (taken : healthFamily ∈ r.families) :
    ∃ e, b.build.result = .error e := by
  by_cases registers : b.Registers
  · exact (build_of_registers given registers).2.mpr (Or.inl ⟨_, List.mem_cons_self, taken⟩)
  · exact (build_of_not_registers given registers).2

end Build

/-- **What a failure leaves in the registry.** An exporter that cannot be made leaves the registry
as it was just if it was not even prepared, or the first of its families was there. The same goes
for a build that fails: the registry is as it was just if the build did not get as far as to
register its families, or the first of them was there. One that gets so far fails because a family
is there or because the plan of added endpoints is invalid, and after it no build succeeds with this
registry. -/
theorem failed_build_familyRegistry (r : FamilyRegistry) :
    (∀ name labels e, (create name labels r).1 = .error e →
      ((create name labels r).2 = r ↔
        (∃ e, prepare name labels = .error e) ∨ healthFamily ∈ r.families)) ∧
    ∀ (b : Blueprint P) (e : BuildError), b.familyRegistry = some r → b.build.result = .error e →
      (b.build.familyRegistry = some r ↔ ¬ b.Registers ∨ healthFamily ∈ r.families) ∧
      (b.Registers →
        ((∃ f ∈ families, f ∈ r.families) ∨ ∃ e, b.addedPlan.validate = .error e) ∧
        ∀ corrected : Blueprint P, corrected.familyRegistry = b.build.familyRegistry →
          ∃ e, corrected.build.result = .error e) := by
  constructor
  · intro name labels e failed
    cases prepared : prepare name labels with
    | error e => simp [create_of_unprepared prepared]
    | ok x =>
      rw [create_of_prepared prepared]
      exact FamilyRegistry.covering_eq_iff.trans (by simp)
  · intro b e given failed
    by_cases registers : b.Registers
    · obtain ⟨hleft, hfails⟩ := build_of_registers given registers
      refine ⟨?_, fun _ => ⟨hfails.mp ⟨e, failed⟩, fun corrected same => ?_⟩⟩
      · rw [hleft, Option.some_inj, families, FamilyRegistry.covering_eq_iff]
        exact (or_iff_right (not_not_intro registers)).symm
      · exact build_fails_of_mem (same.trans hleft) (FamilyRegistry.mem_covering r _ _)
    · obtain ⟨hleft, -⟩ := build_of_not_registers given registers
      exact ⟨iff_of_true hleft (Or.inl registers), fun h => absurd h registers⟩

/-- In a registry that has only the third family, the first two stay behind. -/
example : create "app" [] ⟨[statusFamily]⟩ =
    (.error .takenFamily, ⟨[statusFamily, healthFamily, latencyFamily]⟩) := rfl

/-! ### Two builds -/

/-- An instance without dependencies, with a registry that has another family. -/
def sharing (name : Option String) (check : CheckOverrides) : Blueprint BuiltIn :=
  { plain name BuiltIn.registry Environment.empty with
    check := check
    familyRegistry := some ⟨["up"]⟩ }

/-- A build that fails for want of a name leaves the registry as it was. -/
theorem nameless_build_keeps_familyRegistry :
    (∃ e, (sharing none CheckOverrides.none).build.result = .error e) ∧
      (sharing none CheckOverrides.none).build.familyRegistry = some ⟨["up"]⟩ := by
  refine ⟨⟨_, rfl⟩, ?_⟩
  refine (((failed_build_familyRegistry ⟨["up"]⟩).2
    (sharing none CheckOverrides.none) _ rfl rfl).1).mpr ?_
  exact Or.inl fun ⟨name, rs, x, named, _⟩ => nomatch named

/-- Checks every second. -/
def hastily : CheckOverrides :=
  { CheckOverrides.none with interval := some (Span.ofMillis 1000) }

/-- A build that fails for its checks, which would take longer than a second, leaves its families
behind. The same build without them fails for that, though it succeeds with the registry as it
was. -/
theorem hasty_build :
    (sharing (some "app") hastily).build.result =
      .error (.config (.timeoutNotBelowInterval (Span.ofMillis 5000) (Span.ofMillis 1000))) ∧
    (sharing (some "app") hastily).build.familyRegistry = some ⟨"up" :: families⟩ ∧
    (∃ m, (sharing (some "app") CheckOverrides.none).build.result = .ok m) ∧
    { sharing (some "app") CheckOverrides.none with
        familyRegistry := (sharing (some "app") hastily).build.familyRegistry }.build.result =
      .error (.metrics .takenFamily) :=
  ⟨rfl, by decide +kernel, ⟨_, rfl⟩, rfl⟩

end Blueprint

end HealthMonitor
